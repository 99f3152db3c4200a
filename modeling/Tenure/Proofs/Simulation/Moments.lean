import Tenure.Proofs.Collector.Service
import Tenure.Proofs.Heap.Creation
import Tenure.Proofs.Simulation.Steps

/-!
# Moments of simulations

Every root of a simulation is live, whenever a cycle may have run. A new object is in hand
until it was linked and kept, and no cycle runs in between, so it is live as long as it is
used. All objects have as many fields as the workload says. So no store is refused, and a
simulation fails for the reasons alone that it announces.
-/

set_option autoImplicit false

namespace Tenure

open Checked (Ends ends_lift ends_pure)

/-! ## Parts of simulations -/

namespace Simulated

variable {Value State : Type}

theorem ends_ofStateful {operation : Checked (Answer Value × State)}
    {returns : Value × State → Prop} {refuses : SimulationFailure → Prop}
    (ok : ∀ value state, operation = .ok (.ok value, state) → returns (value, state))
    (error : ∀ failure state, operation = .ok (.error failure, state) →
      refuses (.collector failure)) :
    Ends (Simulated.ofStateful operation) returns refuses where
  ok := fun (value, state) ran => ok value state (run_ofStateful_eq_ok ran)
  error := fun failure ran => by
    unfold Simulated.ofStateful at ran
    rw [ExceptT.run_mk, Checked.bind_eq_ok_iff] at ran
    obtain ⟨⟨answer, state⟩, operated, ran⟩ := ran
    cases answer with
    | ok value => cases ran
    | error cause =>
        cases ran
        exact error cause state operated

theorem ends_ofRefusable {operation : Refusable Value} {returns : Value → Prop}
    {refuses : Failure → Prop} {fails : SimulationFailure → Prop}
    (ends : Ends operation returns refuses)
    (causes : ∀ failure, refuses failure → fails (.collector failure)) :
    Ends (Simulated.ofRefusable operation) returns fails where
  ok := fun value ran => ends.ok value (run_ofRefusable_eq_ok ran)
  error := fun failure ran => by
    unfold Simulated.ofRefusable at ran
    rw [ExceptT.run_adapt] at ran
    cases operated : operation.run with
    | error trap =>
        rw [operated] at ran
        cases ran
    | ok answer =>
        rw [operated] at ran
        cases answer with
        | ok value => cases ran
        | error cause =>
            cases ran
            exact causes cause (ends.error cause operated)

end Simulated

/-- The failures of a workload on any settings. -/
inductive Workload.MayFail (workload : Workload) : SimulationFailure → Prop where
  | workload {fault : WorkloadFault} (found : workload.fault? = some fault) :
      MayFail workload fault.failure
  | configuration (reason : String) : MayFail workload (.collector (.configuration reason))
  | regionReservation (space : Space) (bytes : Nat) :
      MayFail workload (.collector (.regionReservation space bytes))
  | allocationFailure {edenFree : Nat} (oldFree : Nat)
      (crowded : edenFree < roundedSize workload.objectSize.toNat) :
      MayFail workload (.collector
        (.allocationFailure (roundedSize workload.objectSize.toNat) edenFree oldFree))

namespace Simulation

open Collector (Cycled)

variable {Random Policy : Type} {simulation after : Simulation Random Policy}
  {workload : Workload} {inHand : Option Handle}

/-! ## What operations rely on -/

/-- The roots are live, and so is the object in hand. -/
structure Safe (workload : Workload) (inHand : Option Handle)
    (simulation : Simulation Random Policy) : Prop where
  rests : simulation.collector.Rests
  held : ∀ handle ∈ inHand, simulation.collector.heap.directory.isLive handle = true
  rooted : ∀ root ∈ simulation.window.roots,
    simulation.collector.heap.directory.isLive root = true
  shaped : ∀ handle record, simulation.collector.heap.directory.get? handle = some record →
    record.fields.length = workload.fields.toNat

namespace Safe

theorem emptyHanded (rests : simulation.collector.Rests)
    (rooted : ∀ root ∈ simulation.window.roots,
      simulation.collector.heap.directory.isLive root = true)
    (shaped : ∀ handle record, simulation.collector.heap.directory.get? handle = some record →
      record.fields.length = workload.fields.toNat) : Safe workload none simulation where
  rests := rests
  held := fun handle held => absurd held (Option.not_mem_none handle)
  rooted := rooted
  shaped := shaped

/-- Cycles keep what the roots name. What is in hand without a root, they may reclaim. -/
theorem cycled (safe : simulation.Safe workload none) {kinds : List CycleKind}
    {collector : Collector WindowedMemory Policy EventLog}
    (cycled : simulation.collector.Cycled simulation.window kinds collector) :
    Safe workload none { simulation with collector } := by
  apply emptyHanded cycled.rests
  · intro root member
    exact cycled.retains.live root member (safe.rooted root member) root (.refl _ root)
  · intro handle record found
    obtain ⟨before, beforeFound, fields⟩ := cycled.retains.fields handle record found
    rw [fields]
    exact safe.shaped handle before beforeFound

/-- A new object has the fields that the workload asks for. -/
theorem placed (safe : simulation.Safe workload none) {handle : Handle} {rounded : Nat}
    (fresh : simulation.collector.heap.directory.fresh? = some handle)
    (rests : Collector.Rests { simulation.collector with
      heap := simulation.collector.heap.withNew handle rounded workload.fields.toNat }) :
    Safe workload (some handle) { simulation with
      collector := { simulation.collector with
        heap := simulation.collector.heap.withNew handle rounded workload.fields.toNat } } := by
  have live := Heap.isLive_withNew fresh rounded workload.fields.toNat
  refine ⟨rests, fun held same => ?_, fun root member => ?_, fun other record found => ?_⟩
  · cases same
    simp [live]
  · simp [live, safe.rooted root member]
  · dsimp only at found
    rw [Heap.get?_withNew fresh] at found
    split at found
    · cases found
      exact List.length_replicate
    · exact safe.shaped other record found

/-- A store changes neither what is live nor how many fields an object has. -/
theorem stored (safe : simulation.Safe workload inHand) {holder : Handle} {index : Nat}
    {value : Option Handle} {cards : CardTable} {barrier : BarrierCounts}
    (rests : Collector.Rests { simulation.collector with
      heap := simulation.collector.heap.withField holder index value cards barrier }) :
    Safe workload inHand { simulation with
      collector := { simulation.collector with
        heap := simulation.collector.heap.withField holder index value cards barrier } } := by
  refine ⟨rests, fun handle held => ?_, fun root member => ?_, fun other record found => ?_⟩
  · simp [safe.held handle held]
  · simp [safe.rooted root member]
  · dsimp only at found
    rw [Heap.get?_withField] at found
    split at found
    · obtain ⟨before, beforeFound, rfl⟩ := Option.map_eq_some_iff.mp found
      rw [List.length_set]
      exact safe.shaped holder before beforeFound
    · exact safe.shaped other record found

theorem rerolled (safe : simulation.Safe workload inHand) (random : Random) :
    Safe workload inHand { simulation with random } :=
  ⟨safe.rests, safe.held, safe.rooted, safe.shaped⟩

/-- What is kept was in hand, and then it is in hand no more. -/
theorem kept [RandomSource Random] {handle : Handle}
    (safe : simulation.Safe workload (some handle)) :
    (simulation.keep workload handle).Safe workload none := by
  unfold keep
  rcases RandomSource.coin simulation.random workload.survival with ⟨_ | _, random⟩
  · exact emptyHanded safe.rests safe.rooted safe.shaped
  · refine emptyHanded safe.rests (fun root member => ?_) safe.shaped
    rcases RootWindow.mem_roots_of_mem_push member with older | rfl
    · exact safe.rooted root older
    · exact safe.held root rfl

/-- A store into a field that the workload asks for finds the field. -/
theorem ends_store {handle holder : Handle} {index : Nat}
    (safe : simulation.Safe workload (some handle)) (root : holder ∈ simulation.window.roots)
    (inside : index < workload.fields.toNat) :
    Ends (simulation.store holder index handle) (Safe workload (some handle)) workload.MayFail := by
  obtain ⟨record, found⟩ := Directory.isLive_iff.mp (safe.rooted holder root)
  have shape := safe.shaped holder record found
  have accepted : ∀ answer collector,
      simulation.collector.store holder index (some handle) = .ok (answer, collector) →
        answer = .ok () ∧ Safe workload (some handle) { simulation with collector } := by
    intro answer collector ran
    have rests := safe.rests.steps (Collector.steps_of_store ran)
    simp only [Collector.store, Checked.bind_eq_ok_iff, Checked.pure_eq_ok_iff,
      Prod.mk.injEq] at ran
    obtain ⟨⟨_, heap⟩, stored, rfl, rfl⟩ := ran
    obtain ⟨answered, cards, barrier, rfl⟩ :=
      Heap.store_accepted (safe.held handle rfl) found (by omega) stored
    exact ⟨answered, safe.stored rests⟩
  have answered : Ends (Simulated.ofStateful
      (simulation.collector.store holder index (some handle)))
      (fun stored => Safe workload (some handle) { simulation with collector := stored.2 })
      workload.MayFail := by
    refine Simulated.ends_ofStateful (fun _ collector ran => ?_) fun failure collector ran => ?_
    · exact (accepted _ collector ran).2
    · cases (accepted _ collector ran).1
  exact answered.bind fun _ stored => ends_pure stored

theorem ends_link [RandomSource Random] {handle : Handle}
    (safe : simulation.Safe workload (some handle)) :
    Ends (simulation.link workload handle) (Safe workload (some handle)) workload.MayFail := by
  unfold link
  split
  · rename_i fielded
    dsimp only
    split
    · split
      · exact ends_pure (safe.rerolled _)
      · rename_i holder random picked
        have root := RootWindow.mem_roots_of_pick? picked
        exact (safe.rerolled _).ends_store root (Fin.isLt _)
    · exact ends_pure (safe.rerolled _)
  · exact ends_pure safe

variable [PromotionPolicy Policy]

/-- An allocation fails for lack of room only. -/
theorem ends_allocate (safe : simulation.Safe workload none) :
    Ends (simulation.allocate workload)
      (fun allocated => allocated.2.Safe workload (some allocated.1)) workload.MayFail := by
  have answered : Ends (Simulated.ofStateful (simulation.collector.allocate simulation.window
      workload.objectSize.toNat workload.fields.toNat))
      (fun allocated => Safe workload (some allocated.1)
        { simulation with collector := allocated.2 }) workload.MayFail := by
    refine Simulated.ends_ofStateful (fun handle collector ran => ?_) fun failure collector ran => ?_
    · have rests := safe.rests.steps (Collector.steps_of_allocate ran)
      obtain ⟨_, climbs⟩ := Collector.climbs_of_allocate safe.rests.healthy ran
      obtain ⟨last, ladder, lands⟩ := climbs.ladder safe.rests
      cases lands with
      | placed fits fresh => exact (safe.cycled (ladder.cycled safe.rests)).placed fresh rests
    · obtain ⟨_, climbs⟩ := Collector.climbs_of_allocate safe.rests.healthy ran
      obtain ⟨last, _, lands⟩ := climbs.ladder safe.rests
      cases lands with
      | failed full => exact .allocationFailure last.heap.old.spare full
  exact answered.bind fun _ allocated => ends_pure allocated

theorem ends_serve (safe : simulation.Safe workload none) :
    Ends simulation.serve (Safe workload none) workload.MayFail := by
  have answered : Ends (Simulated.ofStateful (simulation.collector.runPending simulation.window))
      (fun served => Safe workload none { simulation with collector := served.2 })
      workload.MayFail := by
    refine Simulated.ends_ofStateful (fun _ collector ran => ?_) fun failure collector ran => ?_
    · obtain ⟨_, _, _, cycled⟩ := Collector.cycled_of_runPending safe.rests ran
      exact safe.cycled cycled
    · obtain ⟨_, _, answered, _⟩ := Collector.cycled_of_runPending safe.rests ran
      cases answered
  exact answered.bind fun _ served => ends_pure served

theorem ends_finish (safe : simulation.Safe workload none) :
    Ends simulation.finish (Safe workload none) workload.MayFail := by
  have requested : Ends (liftM (simulation.collector.request .minor) : Simulated _)
      (fun requested => Safe workload none { simulation with collector := requested.2 })
      workload.MayFail := by
    refine ends_lift fun ⟨_, collector⟩ ran => ?_
    have rests := safe.rests.steps (Collector.steps_of_request ran)
    obtain ⟨requests, rfl⟩ := Collector.request_eq_ok ran
    exact emptyHanded rests safe.rooted safe.shaped
  exact requested.bind fun _ waiting => waiting.ends_serve

end Safe

theorem ends_start [PromotionPolicy Policy] (settings : Settings) (workload : Workload)
    (policy : Policy) (random : Random) :
    Ends (start settings workload policy random) (Safe workload none) workload.MayFail := by
  have created : Ends (Simulated.ofRefusable (Heap.create settings (WindowedMemory.fresh none)))
      (fun heap => heap.Ready ∧ heap.directory = .empty) workload.MayFail := by
    have creation := Heap.ends_create settings (WindowedMemory.fresh none)
    refine Simulated.ends_ofRefusable ⟨fun heap ran => ?_, creation.error⟩
      fun failure cause => ?_
    · exact ⟨Heap.ready_of_create ran, (Heap.create_eq_ok ran).2.1⟩
    · cases cause with
      | settings reason => exact .configuration reason
      | space space bytes => exact .regionReservation space bytes
  refine created.bind fun heap ⟨ready, empty⟩ => ?_
  have opened : Ends (liftM (RootWindow.create workload.maxRoots.toNat) : Simulated _)
      (fun window => window.roots = []) workload.MayFail := by
    refine ends_lift fun window ran => ?_
    unfold RootWindow.create at ran
    simp only [Checked.bind_eq_ok_iff, Checked.pure_eq_ok_iff] at ran
    obtain ⟨_, _, rfl⟩ := ran
    rfl
  refine opened.bind fun window unrooted =>
    ends_pure (Safe.emptyHanded ⟨ready, rfl, rfl⟩ ?_ ?_)
  · intro root member
    dsimp only at member
    rw [unrooted] at member
    cases member
  · intro handle record found
    dsimp only [Collector.ofHeap] at found
    rw [empty, Directory.get?_empty] at found
    cases found

/-! ## Moments -/

variable [RandomSource Random] [PromotionPolicy Policy] {settings : Settings}

/-- The moments of a simulation, with the new object that is in hand, if one is. While none is,
a cycle may run at any time, whatever is requested: so the moments in the midst of an
allocation and of a service are among these. -/
inductive Passes (settings : Settings) (workload : Workload) :
    Option Handle → Simulation Random Policy → Prop where
  | started {policy : Policy} {random : Random} {simulation : Simulation Random Policy}
      (ran : (start settings workload policy random).run = .ok (.ok simulation)) :
      Passes settings workload none simulation
  | cycled {simulation : Simulation Random Policy} {requests : Requests} {kind : CycleKind}
      {answer : Answer CycleReport} {collector : Collector WindowedMemory Policy EventLog}
      (earlier : Passes settings workload none simulation)
      (ran : Collector.collect { simulation.collector with requests } kind simulation.window =
        .ok (answer, collector)) :
      Passes settings workload none { simulation with collector }
  | allocated {simulation after : Simulation Random Policy} {handle : Handle}
      (earlier : Passes settings workload none simulation)
      (ran : (simulation.allocate workload).run = .ok (.ok (handle, after))) :
      Passes settings workload (some handle) after
  | linked {simulation after : Simulation Random Policy} {handle : Handle}
      (earlier : Passes settings workload (some handle) simulation)
      (ran : (simulation.link workload handle).run = .ok (.ok after)) :
      Passes settings workload (some handle) after
  | kept {simulation : Simulation Random Policy} {handle : Handle}
      (earlier : Passes settings workload (some handle) simulation) :
      Passes settings workload none (simulation.keep workload handle)
  | served {simulation after : Simulation Random Policy}
      (earlier : Passes settings workload none simulation)
      (ran : simulation.serve.run = .ok (.ok after)) : Passes settings workload none after
  | finished {simulation after : Simulation Random Policy}
      (earlier : Passes settings workload none simulation)
      (ran : simulation.finish.run = .ok (.ok after)) : Passes settings workload none after

namespace Passes

theorem safe (passes : simulation.Passes settings workload inHand) :
    simulation.Safe workload inHand := by
  induction passes with
  | @started policy random _ ran => exact (ends_start settings workload policy random).ok _ ran
  | cycled _ ran ih =>
      obtain ⟨_, _, cycled⟩ := Collector.cycled_of_collect (ih.rests.queued _) ran
      exact ih.cycled cycled.of_queued
  | allocated _ ran ih => exact ih.ends_allocate.ok _ ran
  | linked _ ran ih => exact ih.ends_link.ok _ ran
  | kept _ ih => exact ih.kept
  | served _ ran ih => exact ih.ends_serve.ok _ ran
  | finished _ ran ih => exact ih.ends_finish.ok _ ran

theorem collected (passes : simulation.Passes settings workload none) {kind : CycleKind}
    {answer : Answer CycleReport} {collector : Collector WindowedMemory Policy EventLog}
    (ran : simulation.collector.collect kind simulation.window = .ok (answer, collector)) :
    Passes settings workload none { simulation with collector } := by
  have unchanged : Collector.collect
      { simulation.collector with requests := simulation.collector.requests } kind
      simulation.window = .ok (answer, collector) := ran
  exact passes.cycled unchanged

/-- The cycles of an allocation run while nothing is in hand. -/
theorem climbed (passes : simulation.Passes settings workload none) {rounded : Nat}
    {kinds : List CycleKind} {last : Collector WindowedMemory Policy EventLog}
    (ladder : simulation.collector.Ladder simulation.window rounded kinds last) :
    Passes settings workload none { simulation with collector := last } := by
  cases ladder with
  | unneeded _ => exact passes
  | @minor report _ _ minor _ =>
      have first : simulation.collector.collect .minor simulation.window =
          .ok (.ok report, last) := minor
      exact passes.collected first
  | @major report second cleared _ _ minor _ major =>
      have first : simulation.collector.collect .minor simulation.window =
          .ok (.ok report, cleared) := minor
      have next : cleared.collect .major simulation.window = .ok (.ok second, last) := major
      exact (passes.collected first).collected next

/-- So do the cycles of a service. -/
theorem serving {remaining : Nat} {reports : List CycleReport}
    {answer : Answer (List CycleReport)} {last : Collector WindowedMemory Policy EventLog}
    (passes : simulation.Passes settings workload none)
    (ran : Collector.serve simulation.window remaining reports simulation.collector =
      .ok (answer, last)) :
    Passes settings workload none { simulation with collector := last } := by
  induction remaining generalizing simulation reports with
  | zero => cases ran
  | succ remaining ih =>
      unfold Collector.serve at ran
      rcases taken : simulation.collector.requests.take with ⟨_ | kind, requests⟩
      · simp only [taken, Except.ok.injEq, Prod.mk.injEq] at ran
        obtain ⟨_, rfl⟩ := ran
        exact passes
      · simp only [taken, Checked.bind_eq_ok_iff] at ran
        obtain ⟨⟨collected, middle⟩, cycle, ran⟩ := ran
        have next := passes.cycled cycle
        cases collected with
        | error failure =>
            cases ran
            exact next
        | ok report =>
            have later := ih next ran
            exact later

/-- A step goes through the moments of an allocation, a store, a decision and a service. -/
theorem ends_step (passes : simulation.Passes settings workload none) :
    Ends (simulation.step workload) (Passes settings workload none) workload.MayFail := by
  have allocation : Ends (simulation.allocate workload)
      (fun allocated => allocated.2.Passes settings workload (some allocated.1))
      workload.MayFail :=
    ⟨fun _ ran => passes.allocated ran, passes.safe.ends_allocate.error⟩
  refine allocation.bind fun ⟨handle, next⟩ inHand => ?_
  have linking : Ends (next.link workload handle) (Passes settings workload (some handle))
      workload.MayFail :=
    ⟨fun _ ran => inHand.linked ran, inHand.safe.ends_link.error⟩
  refine linking.bind fun linked stored => ?_
  exact ⟨fun _ ran => stored.kept.served ran, stored.kept.safe.ends_serve.error⟩

theorem ends_steps (passes : simulation.Passes settings workload none) (count : Nat) :
    Ends (steps workload count simulation) (Passes settings workload none) workload.MayFail := by
  induction count generalizing simulation with
  | zero => exact ends_pure passes
  | succ count ih => exact passes.ends_step.bind fun _ stepped => ih stepped

end Passes

theorem ends_runWith (settings : Settings) (workload : Workload) (policy : Policy)
    (random : Random) :
    Ends (runWith settings workload policy random)
      (fun report => ∃ last : Simulation Random Policy,
        last.Passes settings workload none ∧ report = last.report settings workload)
      workload.MayFail := by
  have begins : Ends (start settings workload policy random) (Passes settings workload none)
      workload.MayFail :=
    ⟨fun _ ran => .started ran, (ends_start settings workload policy random).error⟩
  refine begins.bind fun first started => ?_
  refine (started.ends_steps workload.allocations.toNat).bind fun middle stepped => ?_
  have finishes : Ends middle.finish (Passes settings workload none) workload.MayFail :=
    ⟨fun _ ran => stepped.finished ran, stepped.safe.ends_finish.error⟩
  exact finishes.bind fun last finished => ends_pure ⟨last, finished, rfl⟩

end Simulation

/-- The reports of a workload tell of the last moments of its simulations, under the policy
that it asks for. -/
inductive Workload.Reports (Random : Type) [RandomSource Random] (workload : Workload)
    (settings : Settings) : Report → Prop where
  | adaptive {last : Simulation Random AdaptivePromotion} (adapts : workload.adaptive = true)
      (passes : last.Passes settings workload none) :
      Reports Random workload settings (last.report settings workload)
  | fixed {last : Simulation Random FixedPromotion} (fixed : workload.adaptive = false)
      (passes : last.Passes settings workload none) :
      Reports Random workload settings (last.report settings workload)

theorem Workload.ends_runFrom {Random : Type} [RandomSource Random] (workload : Workload)
    (settings : Settings) (random : Random) :
    Ends (workload.runFrom settings random) (workload.Reports Random settings) workload.MayFail := by
  have valid : Ends (Simulated.of workload.validate) (fun _ => True) workload.MayFail := by
    refine ⟨fun _ _ => trivial, fun failure ran => ?_⟩
    unfold Workload.validate at ran
    cases found : workload.fault? with
    | none =>
        rw [found] at ran
        cases ran
    | some fault =>
        rw [found] at ran
        cases ran
        exact .workload found
  refine valid.bind fun _ _ => ?_
  split
  · rename_i adapts
    have ends := Simulation.ends_runWith settings workload ({} : AdaptivePromotion) random
    refine ⟨fun report ran => ?_, ends.error⟩
    obtain ⟨last, passes, rfl⟩ := ends.ok report ran
    exact .adaptive adapts passes
  · rename_i fixed
    have ends := Simulation.ends_runWith settings workload ({} : FixedPromotion) random
    refine ⟨fun report ran => ?_, ends.error⟩
    obtain ⟨last, passes, rfl⟩ := ends.ok report ran
    exact .fixed (Bool.eq_false_iff.mpr fixed) passes

end Tenure
