import Tenure.Proofs.Simulation.Conservation
import Tenure.Proofs.Simulation.Moments

/-!
# Simulations come to an end

Each step of a simulation runs one minor cycle at most and two major ones, and places one
object. So the number of allocations bounds all counters, and a simulation whose tables can
exist does not stop at a trap.
-/

set_option autoImplicit false

namespace Tenure

open Checked (Achieves Answers achieves_lift achieves_pure)

/-- An object can be rounded up, tables of so many roots and fields can exist, and the
counters can count what so many allocations lead to. An object that is placed lies in a
window, and there are never more objects than slots. -/
structure Workload.Countable (workload : Workload) : Prop where
  size : workload.objectSize.toNat + granule < Word.limit
  roots : workload.maxRoots.toNat * RootWindow.rootWidth ≤ Word.largestTable
  fields : workload.fields.toNat * fieldWidth ≤ Word.largestTable
  cycles : 3 * workload.allocations.toNat + 3 < Word.limit
  bytes : workload.allocations.toNat *
    min (roundedSize workload.objectSize.toNat) WindowedMemory.window < Word.limit
  references : min workload.allocations.toNat Directory.slotLimit * workload.fields.toNat <
    Word.limit

namespace Simulated

variable {Value State : Type}

theorem achieves_ofStateful {operation : Checked (Answer Value × State)}
    {returns : Value × State → Prop} (answers : Answers operation)
    (ok : ∀ value state, operation = .ok (.ok value, state) → returns (value, state)) :
    Achieves (Simulated.ofStateful operation) returns where
  answers := by
    obtain ⟨⟨answer, state⟩, rfl⟩ := answers
    cases answer with
    | ok value => exact ⟨_, rfl⟩
    | error failure => exact ⟨_, rfl⟩
  ok := fun (value, state) ran => ok value state (run_ofStateful_eq_ok ran)

theorem achieves_ofRefusable {operation : Refusable Value} {returns : Value → Prop}
    (answers : Answers operation.run)
    (ok : ∀ value, operation.run = .ok (.ok value) → returns value) :
    Achieves (Simulated.ofRefusable operation) returns where
  answers := by
    obtain ⟨answer, ran⟩ := answers
    unfold Simulated.ofRefusable
    rw [ExceptT.run_adapt, ran]
    exact ⟨_, rfl⟩
  ok := fun value ran => ok value (run_ofRefusable_eq_ok ran)

end Simulated

namespace Simulation

variable {Random Policy : Type} {simulation after : Simulation Random Policy}
  {workload : Workload} {inHand : Option Handle} {objects minors majors : Nat}

/-! ## Numbers -/

theorem Safe.fieldCount_eq (safe : simulation.Safe workload inHand) :
    simulation.collector.heap.directory.fieldCount =
      simulation.collector.heap.directory.live * workload.fields.toNat := by
  have formed := safe.rests.ready.sound.consistent.directory
  have counts : ∀ handle ∈ simulation.collector.heap.directory.handles,
      (simulation.collector.heap.directory.graph handle).length = workload.fields.toNat := by
    intro handle member
    obtain ⟨record, found⟩ := Directory.isLive_iff.mp (formed.mem_handles.mp member)
    rw [Directory.graph, found]
    exact safe.shaped handle record found
  rw [Directory.fieldCount, List.map_congr_left counts, List.map_const', List.sum_replicate_nat,
    formed.length_handles]

/-- So many objects were placed, and at most so many cycles of each kind have run. -/
structure Counted (workload : Workload) (objects minors majors : Nat) (inHand : Option Handle)
    (simulation : Simulation Random Policy) : Prop where
  safe : simulation.Safe workload inHand
  attainable : simulation.collector.heap.Attainable
  balanced : simulation.collector.Balanced (List.replicate objects workload.objectSize.toNat)
  fitting : objects ≠ 0 → roundedSize workload.objectSize.toNat ≤ WindowedMemory.window
  tallied : simulation.collector.Tallied
  minors_le : simulation.collector.totals.minorCycles ≤ minors
  majors_le : simulation.collector.totals.majorCycles ≤ majors
  unfailed : simulation.collector.totals.allocationFailures = 0

namespace Counted

theorem hasRoomFor (counted : simulation.Counted workload objects minors majors inHand)
    (countable : workload.Countable) (fewer : objects ≤ workload.allocations.toNat)
    (fewerMinors : minors ≤ workload.allocations.toNat)
    (fewerMajors : majors ≤ 2 * workload.allocations.toNat) :
    simulation.collector.HasRoomFor [.minor, .major] := by
  have cycles := countable.cycles
  have minorCycles := counted.minors_le
  have majorCycles := counted.majors_le
  have placed := counted.balanced.objects
  have stored := counted.balanced.bytes
  rw [List.length_replicate] at placed
  rw [List.map_replicate, List.sum_replicate_nat] at stored
  have storage : objects * roundedSize workload.objectSize.toNat < Word.limit := by
    rcases Nat.eq_zero_or_pos objects with rfl | positive
    · rw [Nat.zero_mul]
      decide
    · refine Nat.lt_of_le_of_lt (Nat.mul_le_mul fewer ?_) countable.bytes
      exact Nat.le_min.mpr ⟨Nat.le_refl _, counted.fitting (by omega)⟩
  have slots := counted.safe.rests.ready.addressable.live_lt
    counted.safe.rests.ready.sound.consistent
  have references : simulation.collector.heap.directory.live * workload.fields.toNat <
      Word.limit := by
    refine Nat.lt_of_le_of_lt (Nat.mul_le_mul_right _ ?_) countable.references
    exact Nat.le_min.mpr ⟨by omega, by omega⟩
  have none := counted.unfailed
  have minorOnce : [CycleKind.minor, .major].count .minor = 1 := rfl
  refine counted.tallied.hasRoomFor silent_eventLog ?_ ?_ ?_ ?_ ?_ ?_
  · rw [List.length_cons, List.length_singleton]
    omega
  · omega
  · rw [minorOnce]
    omega
  · omega
  · rw [none]
    decide
  · rw [counted.safe.fieldCount_eq]
    exact references

/-! ## Operations -/

theorem placed [PromotionPolicy Policy] {handle : Handle}
    (counted : simulation.Counted workload objects minors majors none)
    (unasked : simulation.collector.requests.minor = false)
    (ran : (simulation.allocate workload).run = .ok (.ok (handle, after))) :
    after.Counted workload (objects + 1) (minors + 1) (majors + 1) (some handle) ∧
      after.collector.requests.minor = false := by
  have rests := counted.safe.rests
  have safe := counted.safe.ends_allocate.ok _ ran
  have steps := steps_of_allocation ran
  have attainable := counted.attainable.attains steps.attains
  have balanced := counted.balanced.steps counted.attainable steps
  rw [← List.replicate_succ'] at balanced
  obtain ⟨collector, allocated, rfl⟩ := allocate_eq_ok ran
  obtain ⟨kinds, climbs⟩ := Collector.climbs_of_allocate rests.healthy allocated
  obtain ⟨last, ladder, lands⟩ := climbs.ladder rests
  obtain ⟨tallied, still⟩ := ladder.tallied silent_eventLog rests counted.tallied unasked
  have cycled := ladder.cycled rests
  have consistent := cycled.rests.ready.sound.consistent
  have minorOnce := ladder.count_le .minor
  have majorOnce := ladder.count_le .major
  have minorCycles := cycled.minorCycles
  have majorCycles := cycled.majorCycles
  have earlierMinors := counted.minors_le
  have earlierMajors := counted.majors_le
  cases lands with
  | placed fits fresh =>
      have window := cycled.rests.ready.addressable.capacity_le .eden
      simp only [Heap.arena] at window
      refine ⟨⟨safe, attainable, balanced, fun _ => ?_, tallied.placed consistent fresh _ _, ?_, ?_,
        cycled.allocationFailures.trans counted.unfailed⟩, still⟩
      · rw [Arena.spare] at fits
        omega
      · dsimp only
        omega
      · dsimp only
        omega

theorem linked [RandomSource Random] {handle : Handle}
    (counted : simulation.Counted workload objects minors majors (some handle))
    (ran : (simulation.link workload handle).run = .ok (.ok after)) :
    after.Counted workload objects minors majors (some handle) ∧
      after.collector.requests = simulation.collector.requests := by
  have safe := counted.safe.ends_link.ok _ ran
  have steps := steps_of_link ran
  have attainable := counted.attainable.attains steps.attains
  have balanced := counted.balanced.steps counted.attainable steps
  rw [List.append_nil] at balanced
  obtain ⟨earlier, _, _, fitting, tallied, fewMinors, fewMajors, unfailed⟩ := counted
  rcases link_eq_ok ran with same | ⟨_, _, stored⟩
  · rw [← same] at tallied fewMinors fewMajors unfailed
    exact ⟨⟨safe, attainable, balanced, fitting, tallied, fewMinors, fewMajors, unfailed⟩,
      congrArg Collector.requests same⟩
  · simp only [Collector.store, Checked.bind_eq_ok_iff, Checked.pure_eq_ok_iff,
      Prod.mk.injEq] at stored
    obtain ⟨⟨_, heap⟩, stored, _, same⟩ := stored
    have still := tallied.stored earlier.rests.ready.sound stored
    rw [same] at still
    refine ⟨⟨safe, attainable, balanced, fitting, still, ?_, ?_, ?_⟩, ?_⟩
    · rw [← same]
      exact fewMinors
    · rw [← same]
      exact fewMajors
    · rw [← same]
      exact unfailed
    · rw [← same]

theorem kept [RandomSource Random] {handle : Handle}
    (counted : simulation.Counted workload objects minors majors (some handle)) :
    (simulation.keep workload handle).Counted workload objects minors majors none := by
  have same := simulation.collector_keep workload handle
  obtain ⟨safe, attainable, balanced, fitting, tallied, minors, majors, unfailed⟩ := counted
  rw [← same] at attainable balanced tallied minors majors unfailed
  exact ⟨safe.kept, attainable, balanced, fitting, tallied, minors, majors, unfailed⟩

section Services

variable [PromotionPolicy Policy]

theorem exists_served (counted : simulation.Counted workload objects minors majors none)
    (room : simulation.collector.HasRoomFor [.minor, .major]) :
    ∃ after, simulation.serve.run = .ok (.ok after) ∧
      after.Counted workload objects (minors + simulation.collector.requests.minor.toNat)
        (majors + 1) none ∧
      after.collector.requests.isEmpty = true := by
  have rests := counted.safe.rests
  obtain ⟨reports, kinds, collector, served, serves⟩ :=
    Collector.exists_runPending silent_eventLog rests counted.tallied room simulation.window
  have ran : simulation.serve.run = .ok (.ok { simulation with collector }) := by
    simp only [serve, Simulated.ofStateful, served]
    rfl
  have steps := steps_of_serve ran
  have attainable := counted.attainable.attains steps.attains
  have balanced := counted.balanced.steps counted.attainable steps
  rw [List.append_nil] at balanced
  have minorCycles := serves.cycled.minorCycles
  have majorCycles := serves.cycled.majorCycles
  have earlierMinors := counted.minors_le
  have earlierMajors := counted.majors_le
  have minorCount := serves.minors
  have majorCount := serves.majors_le
  refine ⟨_, ran, ⟨counted.safe.cycled serves.cycled, attainable, balanced, counted.fitting,
    serves.tallied, ?_, ?_, serves.cycled.allocationFailures.trans counted.unfailed⟩,
    serves.unasked⟩
  · dsimp only
    omega
  · dsimp only
    omega

theorem achieves_finish (counted : simulation.Counted workload objects minors majors none)
    (unasked : simulation.collector.requests.minor = false) (countable : workload.Countable)
    (fewer : objects ≤ workload.allocations.toNat) (fewerMinors : minors ≤ workload.allocations.toNat)
    (fewerMajors : majors ≤ 2 * workload.allocations.toNat) :
    Achieves simulation.finish fun _ => True := by
  have requested : simulation.collector.request .minor =
      .ok (true, { simulation.collector with
        requests := simulation.collector.requests.set .minor true }) := by
    simp only [Collector.request, Requests.push, Requests.contains, unasked]
    rfl
  have waiting : Counted workload objects minors majors none { simulation with
      collector := { simulation.collector with
        requests := simulation.collector.requests.set .minor true } } :=
    { counted with
      safe := .emptyHanded (counted.safe.rests.queued _) counted.safe.rooted counted.safe.shaped
      balanced := ⟨counted.balanced.aligned, counted.balanced.objects, counted.balanced.bytes⟩
      tallied := counted.tallied.queued (Requests.dropped_set _ .minor true) }
  obtain ⟨last, served, _⟩ :=
    waiting.exists_served (waiting.hasRoomFor countable fewer fewerMinors fewerMajors)
  refine ⟨⟨.ok last, ?_⟩, fun _ _ => trivial⟩
  simp only [finish, requested]
  exact served

end Services

theorem achieves_link [RandomSource Random] {handle : Handle}
    (counted : simulation.Counted workload objects minors majors (some handle)) :
    Achieves (simulation.link workload handle) fun after =>
      after.Counted workload objects minors majors (some handle) ∧
        after.collector.requests = simulation.collector.requests := by
  have stores : ∀ (random : Random) holder index,
      Achieves (({ simulation with random } : Simulation Random Policy).store holder index handle)
        fun _ => True := by
    intro random holder index
    have ready := counted.safe.rests.ready
    have stored : Answers (simulation.collector.store holder index (some handle)) :=
      (Heap.answers_store ready.sound.consistent ready.addressable _ _ _).bind
        fun _ _ => Checked.answers_pure _
    have operated : Achieves (Simulated.ofStateful
        (simulation.collector.store holder index (some handle))) fun _ => True :=
      Simulated.achieves_ofStateful stored fun _ _ _ => trivial
    exact operated.bind fun _ _ => achieves_pure trivial
  have links : Achieves (simulation.link workload handle) fun _ => True := by
    unfold link
    split
    · dsimp only
      split
      · split
        · exact achieves_pure trivial
        · exact stores _ _ _
      · exact achieves_pure trivial
    · exact achieves_pure trivial
  exact ⟨links.answers, fun _ ran => counted.linked ran⟩

variable [PromotionPolicy Policy]

theorem achieves_allocate (counted : simulation.Counted workload objects minors majors none)
    (unasked : simulation.collector.requests.minor = false)
    (room : simulation.collector.HasRoomFor [.minor, .major]) (countable : workload.Countable) :
    Achieves (simulation.allocate workload) fun allocated =>
      allocated.2.Counted workload (objects + 1) (minors + 1) (majors + 1) (some allocated.1) ∧
        allocated.2.collector.requests.minor = false := by
  have answers : Answers (simulation.collector.allocate simulation.window
      workload.objectSize.toNat workload.fields.toNat) :=
    counted.safe.rests.answers_allocate countable.size countable.fields room _
  have operated : Achieves (Simulated.ofStateful (simulation.collector.allocate simulation.window
      workload.objectSize.toNat workload.fields.toNat)) fun _ => True :=
    Simulated.achieves_ofStateful answers fun _ _ _ => trivial
  have allocates : Achieves (simulation.allocate workload) fun _ => True :=
    operated.bind fun _ _ => achieves_pure trivial
  exact ⟨allocates.answers, fun ⟨_, _⟩ ran => counted.placed unasked ran⟩

variable [RandomSource Random]

/-- A step places one object, with one minor cycle at most and two major ones. -/
theorem achieves_step (counted : simulation.Counted workload objects objects (2 * objects) none)
    (unasked : simulation.collector.requests.isEmpty = true) (countable : workload.Countable)
    (fewer : objects + 1 ≤ workload.allocations.toNat) :
    Achieves (simulation.step workload) fun after =>
      after.Counted workload (objects + 1) (objects + 1) (2 * (objects + 1)) none ∧
        after.collector.requests.isEmpty = true := by
  obtain ⟨quiet, _⟩ := Requests.isEmpty_iff.mp unasked
  have room := counted.hasRoomFor countable (by omega) (by omega) (by omega)
  apply (counted.achieves_allocate quiet room countable).bind
  rintro ⟨handle, placed⟩ ⟨more, still⟩
  apply more.achieves_link.bind
  rintro linked ⟨same, asked⟩
  have kept := same.kept
  have roomier := kept.hasRoomFor countable fewer (by omega) (by omega)
  obtain ⟨after, served, last, empty⟩ := kept.exists_served roomier
  refine ⟨⟨.ok after, served⟩, fun other ran => ?_⟩
  rw [served] at ran
  cases ran
  rw [collector_keep, asked, still] at last
  exact ⟨last, empty⟩

theorem achieves_steps {count : Nat}
    (counted : simulation.Counted workload objects objects (2 * objects) none)
    (unasked : simulation.collector.requests.isEmpty = true) (countable : workload.Countable)
    (fewer : objects + count ≤ workload.allocations.toNat) :
    Achieves (steps workload count simulation) fun after =>
      after.Counted workload (objects + count) (objects + count) (2 * (objects + count)) none ∧
        after.collector.requests.isEmpty = true := by
  induction count generalizing simulation objects with
  | zero => exact achieves_pure ⟨counted, unasked⟩
  | succ count ih =>
      apply (counted.achieves_step unasked countable (by omega)).bind
      rintro middle ⟨stepped, empty⟩
      have later := ih stepped empty (by omega)
      rw [Nat.add_assoc, Nat.add_comm 1 count] at later
      exact later

end Counted

/-! ## Whole simulations -/

variable [PromotionPolicy Policy]

theorem achieves_start (settings : Settings) (countable : workload.Countable) (policy : Policy)
    (random : Random) :
    Achieves (start settings workload policy random) fun first =>
      first.Counted workload 0 0 0 none ∧ first.collector.requests.isEmpty = true := by
  constructor
  · have created : Achieves (Simulated.ofRefusable
        (Heap.create settings (WindowedMemory.fresh none))) fun _ => True :=
      Simulated.achieves_ofRefusable (Heap.answers_create settings none) fun _ _ => trivial
    have opened : Answers (RootWindow.create workload.maxRoots.toNat) :=
      Answers.bind ⟨(), Word.checkTable_eq_ok_iff.mpr countable.roots⟩
        fun _ _ => Checked.answers_pure _
    have starts : Achieves (start settings workload policy random) fun _ => True := by
      refine created.bind fun _ _ => ?_
      have windows : Achieves (liftM (RootWindow.create workload.maxRoots.toNat) : Simulated _)
          fun _ => True := achieves_lift opened fun _ _ => trivial
      exact windows.bind fun _ _ => achieves_pure trivial
    exact starts.answers
  · intro first ran
    have safe := (ends_start settings workload policy random).ok first ran
    obtain ⟨heap, window, created, _, rfl⟩ := start_eq_ok ran
    have attainable : heap.Attainable := ⟨settings, _, heap, [], created, rfl⟩
    have empty : heap.directory.live = 0 := by
      rw [(Heap.create_eq_ok created).2.1]
      rfl
    have balanced := Collector.balanced_ofHeap attainable.sound empty policy EventLog.empty
    have tallied := Collector.tallied_ofHeap attainable.sound policy EventLog.empty
    exact ⟨⟨safe, attainable, balanced, absurd rfl, tallied, Nat.le_refl 0, Nat.le_refl 0, rfl⟩, rfl⟩

theorem achieves_runWith [RandomSource Random] (settings : Settings)
    (countable : workload.Countable) (policy : Policy) (random : Random) :
    Achieves (runWith settings workload policy random) fun _ => True := by
  apply (achieves_start settings countable policy random).bind
  rintro first ⟨counted, empty⟩
  apply (counted.achieves_steps empty countable (Nat.zero_add _).le).bind
  rintro middle ⟨stepped, unasked⟩
  obtain ⟨quiet, _⟩ := Requests.isEmpty_iff.mp unasked
  rw [Nat.zero_add] at stepped
  have finishes := stepped.achieves_finish quiet countable (Nat.le_refl _) (Nat.le_refl _)
    (Nat.le_refl _)
  exact finishes.bind fun _ _ => achieves_pure trivial

end Simulation

theorem Workload.Countable.answers_runFrom {Random : Type} [RandomSource Random]
    {workload : Workload} (countable : workload.Countable) (settings : Settings)
    (random : Random) : Answers (workload.runFrom settings random).run := by
  have valid : Achieves (Simulated.of workload.validate) fun _ => True :=
    ⟨⟨_, rfl⟩, fun _ _ => trivial⟩
  have runs : Achieves (workload.runFrom settings random) fun _ => True := by
    refine valid.bind fun _ _ => ?_
    split
    · exact Simulation.achieves_runWith settings countable _ random
    · exact Simulation.achieves_runWith settings countable _ random
  exact runs.answers

/-! ## Handles -/

/-- Whatever is left to chance, every root is live at every moment of a simulation, and so is
a new object as long as it is in hand. So no handle is refused: a simulation ends with a
report, or for a reason that it announces, and it does end if the workload is countable. -/
theorem Workload.handles_stay_valid {Random : Type} [RandomSource Random] (workload : Workload)
    (settings : Settings) (random : Random) :
    (∀ report, (workload.runFrom settings random).run = .ok (.ok report) →
      workload.Reports Random settings report) ∧
    (∀ failure, (workload.runFrom settings random).run = .ok (.error failure) →
      workload.MayFail failure) ∧
    (∀ (Policy : Type) [PromotionPolicy Policy] (inHand : Option Handle)
        (simulation : Simulation Random Policy), simulation.Passes settings workload inHand →
      ∀ handle, handle ∈ inHand ∨ handle ∈ simulation.window.roots →
        simulation.collector.heap.directory.isLive handle = true) ∧
    (workload.Countable → ∃ answer, (workload.runFrom settings random).run = .ok answer) := by
  have ends := workload.ends_runFrom settings random
  refine ⟨ends.ok, ends.error, fun Policy _ inHand simulation passes handle known => ?_,
    fun countable => countable.answers_runFrom settings random⟩
  rcases known with held | root
  · exact passes.safe.held handle held
  · exact passes.safe.rooted handle root

/-- No object of it fits into eden. -/
def crowdedWorkload : Workload := { smallWorkload with objectSize := 1000 }

theorem Workload.handles_stay_valid_when_small :
    (smallWorkload.Countable ∧ ∃ report,
      (smallWorkload.runFrom Heap.smallSettings (SeededRandom.ofSeed smallWorkload.seed)).run =
          .ok (.ok report) ∧
        smallWorkload.Reports SeededRandom Heap.smallSettings report) ∧
    (∃ failure,
      (crowdedWorkload.runFrom Heap.smallSettings (SeededRandom.ofSeed crowdedWorkload.seed)).run =
          .ok (.error failure) ∧
        crowdedWorkload.MayFail failure) ∧
    ∃ (simulation : Simulation SeededRandom FixedPromotion) (root : Handle),
      simulation.Passes Heap.smallSettings smallWorkload none ∧
        root ∈ simulation.window.roots ∧
        simulation.collector.heap.directory.isLive root = true := by
  have small : smallWorkload.Countable :=
    ⟨by decide, by decide, by decide, by decide, by decide, by decide⟩
  obtain ⟨reports, _, lives, ends⟩ := Workload.handles_stay_valid smallWorkload
    Heap.smallSettings (SeededRandom.ofSeed smallWorkload.seed)
  obtain ⟨_, fails, _, _⟩ := Workload.handles_stay_valid crowdedWorkload
    Heap.smallSettings (SeededRandom.ofSeed crowdedWorkload.seed)
  refine ⟨⟨small, ?_⟩, ?_, ?_⟩
  · obtain ⟨answer, ran⟩ := ends small
    have reported : (smallWorkload.runFrom Heap.smallSettings
        (SeededRandom.ofSeed smallWorkload.seed)).run.toOption.any (·.isOk) = true := by
      decide +kernel
    rw [ran] at reported
    cases answer with
    | ok report => exact ⟨report, ran, reports report ran⟩
    | error failure => cases reported
  · obtain ⟨answer, ran, failed⟩ := Checked.eq_ok_of_any
      (show (crowdedWorkload.runFrom Heap.smallSettings
          (SeededRandom.ofSeed crowdedWorkload.seed)).run.toOption.any
        (fun answer => !answer.isOk) = true by decide +kernel)
    cases answer with
    | ok report => cases failed
    | error failure => exact ⟨failure, ran, fails failure ran⟩
  · obtain ⟨answer, ran, rooted⟩ := Checked.eq_ok_of_any
      (show (Simulation.start Heap.smallSettings smallWorkload ({} : FixedPromotion)
          (SeededRandom.ofSeed smallWorkload.seed) >>=
            Simulation.steps smallWorkload 2).run.toOption.any (fun answer =>
        answer.toOption.any fun simulation => !simulation.window.roots.isEmpty) = true
        by decide +kernel)
    cases answer with
    | error failure => cases rooted
    | ok last =>
        obtain ⟨first, started, stepped⟩ := Checked.run_bind_eq_ok ran
        have passes := ((Simulation.Passes.started started).ends_steps 2).ok last stepped
        have occupied : last.window.roots ≠ [] := by
          simpa [Except.toOption] using rooted
        obtain ⟨root, member⟩ := List.exists_mem_of_ne_nil _ occupied
        exact ⟨last, root, passes, member, lives _ none last passes root (.inr member)⟩

/-- Its objects have the greatest size of whole granules. -/
def greatestWorkload : Workload := { allocations := 1, objectSize := 18446744073709551608 }

/-- The size needs no rounding, and yet the simulation ends in a trap, not in a report and not
for a reason that it announces. -/
theorem Workload.greatest_run_stops :
    greatestWorkload.objectSize.toNat + granule = Word.limit ∧
      (greatestWorkload.run {}).run = .error .addOverflow := by
  refine ⟨by decide, ?_⟩
  have stops : (match (greatestWorkload.run {}).run with
      | .error trap => trap == .addOverflow
      | .ok _ => false) = true := by
    decide +kernel
  cases ran : (greatestWorkload.run {}).run with
  | ok answer =>
      rw [ran] at stops
      cases stops
  | error trap =>
      rw [ran] at stops
      exact congrArg _ (eq_of_beq stops)

end Tenure
