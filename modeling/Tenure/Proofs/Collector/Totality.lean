import Tenure.Proofs.Collector.Ladder

/-!
# Allocations come to an end

No allocation stops at a trap as long as the counters of the collector have room for its
cycles: the numbers of cycles and of what they reclaim, and the requests that are dropped
because one of their kind waits already.
-/

set_option autoImplicit false

namespace Tenure

open Checked (Answers StopsOnlyIf answers_pure bind_of_eq_ok stopsOnlyIf_bind_of_eq_ok)

/-! ## Requests -/

/-- How many cycles a listener asks for while it hears of events. -/
def wishes {Hearer : Type} [Listener Hearer] (hearer : Hearer) : List (Phase × Event) → Nat
  | [] => 0
  | (phase, event) :: later =>
    let (wanted, next) := Listener.hear hearer phase event
    wanted.length + wishes next later

/-- Listeners that never ask for a cycle. -/
def Silent (Hearer : Type) [Listener Hearer] : Prop :=
  ∀ (hearer : Hearer) (phase : Phase) (event : Event), (Listener.hear hearer phase event).1 = []

theorem silent_unit : Silent Unit := fun _ _ _ => rfl

theorem silent_eventLog : Silent EventLog := fun _ _ _ => rfl

theorem Silent.wishes_eq {Hearer : Type} [Listener Hearer] (silent : Silent Hearer)
    (hearer : Hearer) (heard : List (Phase × Event)) : wishes hearer heard = 0 := by
  induction heard generalizing hearer with
  | nil => rfl
  | cons moment later ih =>
      obtain ⟨phase, event⟩ := moment
      have asked := silent hearer phase event
      simp only [wishes, asked, ih]
      rfl

/-- A listener that asks for no cycle, whatever it hears. -/
def Quiet {Hearer : Type} [Listener Hearer] (hearer : Hearer) : Prop :=
  ∀ heard, wishes hearer heard = 0

theorem Silent.quiet {Hearer : Type} [Listener Hearer] (silent : Silent Hearer)
    (hearer : Hearer) : Quiet hearer := silent.wishes_eq hearer

section Quiet

variable {Hearer : Type} [Listener Hearer] {hearer : Hearer}

theorem Quiet.wanted (quiet : Quiet hearer) (phase : Phase) (event : Event) :
    (Listener.hear hearer phase event).1 = [] :=
  List.eq_nil_of_length_eq_zero (quiet [(phase, event)])

theorem Quiet.next (quiet : Quiet hearer) (phase : Phase) (event : Event) :
    Quiet (Listener.hear hearer phase event).2 := by
  intro heard
  have wished := quiet ((phase, event) :: heard)
  simp only [wishes] at wished
  exact (Nat.add_eq_zero_iff.mp wished).2

end Quiet

theorem Requests.exists_push {requests : Requests} (room : requests.dropped + 1 < Word.limit)
    (kind : CycleKind) : ∃ waits after, requests.push kind = .ok (waits, after) ∧
      after.dropped ≤ requests.dropped + 1 := by
  unfold push
  split
  · exact ⟨false, _, bind_of_eq_ok (Word.add_of_lt room) rfl, Nat.le_refl _⟩
  · refine ⟨true, _, rfl, ?_⟩
    cases kind with
    | minor => exact Nat.le_succ _
    | major => exact Nat.le_succ _

theorem Requests.exists_pushAll {requests : Requests} {kinds : List CycleKind}
    (room : requests.dropped + kinds.length < Word.limit) :
    ∃ after, requests.pushAll kinds = .ok after ∧
      after.dropped ≤ requests.dropped + kinds.length := by
  induction kinds generalizing requests with
  | nil => exact ⟨requests, rfl, Nat.le_refl _⟩
  | cons kind rest ih =>
      rw [List.length_cons] at room ⊢
      obtain ⟨waits, middle, pushed, dropped⟩ :=
        exists_push (show requests.dropped + 1 < Word.limit by omega) kind
      obtain ⟨after, followed, later⟩ :=
        ih (show middle.dropped + rest.length < Word.limit by omega)
      refine ⟨after, ?_, by omega⟩
      rw [pushAll, List.foldlM_cons, pushed]
      exact followed

/-! ## Counters -/

/-- The totals can count cycles of these kinds on so many objects with so many bytes, and one
allocation that is given up. -/
structure Totals.HasRoomFor (kinds : List CycleKind) (live bytes : Nat) (totals : Totals) :
    Prop where
  minorCycles : totals.minorCycles + kinds.count .minor < Word.limit
  majorCycles : totals.majorCycles + kinds.count .major < Word.limit
  bytesReclaimed : totals.bytesReclaimed + bytes < Word.limit
  objectsReclaimed : totals.objectsReclaimed + live < Word.limit
  objectsPromoted : totals.objectsPromoted + kinds.count .minor * live < Word.limit
  promotionFailures : totals.promotionFailures + kinds.count .minor < Word.limit
  thresholdChanges : totals.thresholdChanges + kinds.count .minor < Word.limit
  allocationFailures : totals.allocationFailures + 1 < Word.limit

theorem Totals.answers_countCycle {totals : Totals} {report : CycleReport}
    (minor : report.kind = .minor → totals.minorCycles + 1 < Word.limit)
    (major : report.kind = .major → totals.majorCycles + 1 < Word.limit) :
    Answers (totals.countCycle report) := by
  unfold countCycle
  cases kind : report.kind with
  | minor =>
      exact Answers.bind ⟨_, Word.add_of_lt (minor kind)⟩ fun _ _ => answers_pure _
  | major =>
      exact Answers.bind ⟨_, Word.add_of_lt (major kind)⟩ fun _ _ => answers_pure _

theorem Totals.answers_record {totals : Totals} {report : CycleReport}
    (counted : Answers (totals.countCycle report))
    (bytes : totals.bytesReclaimed + report.bytesReclaimed < Word.limit)
    (objects : totals.objectsReclaimed + report.objectsReclaimed < Word.limit)
    (promoted : totals.objectsPromoted + report.promoted < Word.limit) :
    Answers (totals.record report) := by
  unfold record
  refine counted.bind fun counts count => ?_
  obtain rfl := countCycle_eq_ok count
  refine Answers.bind ⟨_, Word.add_of_lt bytes⟩ fun _ _ => ?_
  refine Answers.bind ⟨_, Word.add_of_lt objects⟩ fun _ _ => ?_
  exact Answers.bind ⟨_, Word.add_of_lt promoted⟩ fun _ _ => answers_pure _

section Record

variable {totals : Totals} {kinds : List CycleKind} {live bytes objects : Nat}
  {report : CycleReport} {left leftBytes : Nat}

/-- A cycle is counted, and there is room for the other ones after it, also when it is a minor
cycle that counts as a promotion failure and as a change of the threshold. -/
theorem Totals.HasRoomFor.exists_record
    (room : totals.HasRoomFor (report.kind :: kinds) live bytes)
    (objects : left + report.objectsReclaimed = live)
    (storage : leftBytes + report.bytesReclaimed = bytes)
    (promoted : report.promoted ≤ [report.kind].count .minor * live) :
    ∃ after, totals.record report = .ok after ∧
      after.promotionFailures = totals.promotionFailures ∧
      after.thresholdChanges = totals.thresholdChanges ∧
      ∀ promotionFailures thresholdChanges,
        promotionFailures ≤ totals.promotionFailures + [report.kind].count .minor →
        thresholdChanges ≤ totals.thresholdChanges + [report.kind].count .minor →
        HasRoomFor kinds left leftBytes { after with promotionFailures, thresholdChanges } := by
  obtain ⟨minors, majors, bytesRoom, objectsRoom, promotedRoom, failures, changes, gaveUp⟩ := room
  have split : ∀ kind, (report.kind :: kinds).count kind =
      [report.kind].count kind + kinds.count kind := fun kind => by
    rw [← List.count_append, List.singleton_append]
  have single : ∀ kind, [report.kind].count kind = if report.kind = kind then 1 else 0 :=
    fun kind => by simp [List.count_singleton]
  rw [split] at minors majors failures changes
  rw [split, Nat.add_mul] at promotedRoom
  have fewer := Nat.mul_le_mul_left (kinds.count .minor) (Nat.le.intro objects)
  have counted : Answers (totals.countCycle report) := by
    refine answers_countCycle (fun minor => ?_) fun major => ?_
    · have one := single .minor
      rw [if_pos minor] at one
      omega
    · have one := single .major
      rw [if_pos major] at one
      omega
  obtain ⟨after, recorded⟩ := answers_record counted (by omega) (by omega) (by omega)
  obtain ⟨counts, promotes, changed, _⟩ := record_eq_ok recorded
  refine ⟨after, recorded, counts.promotionFailures, changed, fun _ _ failed tuned => ?_⟩
  have minorCount := counts.minorCycles
  have majorCount := counts.majorCycles
  rw [← single] at minorCount majorCount
  exact
    { minorCycles := by dsimp only; omega
      majorCycles := by dsimp only; omega
      bytesReclaimed := by rw [counts.bytesReclaimed]; omega
      objectsReclaimed := by rw [counts.objectsReclaimed]; omega
      objectsPromoted := by rw [promotes]; omega
      promotionFailures := by dsimp only; omega
      thresholdChanges := by dsimp only; omega
      allocationFailures := by rw [counts.allocationFailures]; exact gaveUp }

end Record

/-! ## Objects of a heap -/

namespace Heap

variable {heap after : Heap WindowedMemory} {roots : List Handle}

theorem Retains.fieldCount_le (retains : heap.Retains roots after) (consistent : heap.Consistent)
    (consistentAfter : after.Consistent) :
    after.directory.fieldCount ≤ heap.directory.fieldCount := by
  refine Handle.sum_le_of_subset (fun handle => ?_) consistentAfter.directory.nodup_handles
    fun handle member => ?_
  · unfold Directory.graph
    cases found : after.directory.get? handle with
    | none => exact Nat.zero_le _
    | some record =>
        obtain ⟨before, beforeFound, fields⟩ := retains.fields handle record found
        rw [beforeFound]
        exact Nat.le_of_eq (congrArg List.length fields)
  · obtain ⟨record, found⟩ :=
      Directory.isLive_iff.mp (consistentAfter.directory.mem_handles.mp member)
    obtain ⟨before, beforeFound, _⟩ := retains.fields handle record found
    exact consistent.directory.mem_handles.mpr (Directory.isLive_iff.mpr ⟨before, beforeFound⟩)

theorem Sound.promoted_le (sound : heap.Sound) {marker next : Marker} {outcome : MinorOutcome}
    (ran : heap.minorCycle marker roots = .ok (.ok outcome, after, next)) :
    outcome.promoted + outcome.overflowPromoted ≤ heap.directory.live := by
  have promoted := sound.youngs_of_minorCycle ran
  have young := sound.consistent.directory.length_youngs_le
  omega

end Heap

section Counters

variable {Policy Hearer : Type} {collector : Collector WindowedMemory Policy Hearer}

namespace Collector

variable [Listener Hearer]

/-- The dropped requests stay countable while a listener hears of some events, and while so
many requests come besides. -/
def Hears (collector : Collector WindowedMemory Policy Hearer) (events requests : Nat) : Prop :=
  ∀ heard : List (Phase × Event), heard.length ≤ events →
    collector.requests.dropped + wishes collector.hearer heard + requests < Word.limit

theorem Hears.mono {events requests fewer less : Nat} (hears : collector.Hears events requests)
    (fewerEvents : fewer ≤ events) (lessRequests : less ≤ requests) :
    collector.Hears fewer less :=
  fun heard short => Nat.lt_of_le_of_lt (Nat.add_le_add_left lessRequests _)
    (hears heard (Nat.le_trans short fewerEvents))

theorem Hears.exists_emit {events requests : Nat} (hears : collector.Hears (events + 1) requests)
    (event : Event) : ∃ hearer waiting,
      collector.emit event = .ok { collector with hearer, requests := waiting } ∧
      Hears { collector with hearer, requests := waiting } events requests := by
  have alone := hears [(collector.phase, event)] (by simp)
  simp only [wishes] at alone
  obtain ⟨waiting, pushed, dropped⟩ := Requests.exists_pushAll
    (show collector.requests.dropped +
      (Listener.hear collector.hearer collector.phase event).1.length < Word.limit by omega)
  refine ⟨(Listener.hear collector.hearer collector.phase event).2, waiting, ?_,
    fun heard short => ?_⟩
  · unfold emit
    exact bind_of_eq_ok pushed rfl
  · have more := hears ((collector.phase, event) :: heard) (by simpa using short)
    simp only [wishes] at more ⊢
    omega

theorem Hears.exists_requestMajorIf {events requests : Nat}
    (hears : collector.Hears events (requests + 1)) (condition : Bool) : ∃ waiting,
      collector.requestMajorIf condition = .ok { collector with requests := waiting } ∧
      Hears { collector with requests := waiting } events requests := by
  unfold requestMajorIf
  cases condition with
  | false => exact ⟨collector.requests, rfl, hears.mono (Nat.le_refl _) (Nat.le_succ _)⟩
  | true =>
      have room := hears [] (Nat.zero_le _)
      obtain ⟨waits, after, pushed, dropped⟩ := Requests.exists_push
        (show collector.requests.dropped + 1 < Word.limit by simp only [wishes] at room; omega)
        .major
      refine ⟨after, ?_, fun heard short => ?_⟩
      · simp only [↓reduceIte]
        have requested : collector.request .major =
            .ok (waits, { collector with requests := after }) := bind_of_eq_ok pushed rfl
        exact bind_of_eq_ok requested rfl
      · have enough := hears heard short
        dsimp only
        omega

/-- Cycles of these kinds can run one after another without a counter that overflows. -/
structure HasRoomFor (kinds : List CycleKind) (collector : Collector WindowedMemory Policy Hearer) :
    Prop where
  cycle : collector.cycle + kinds.length < Word.limit
  minorsSinceMajor : collector.minorsSinceMajor + kinds.count .minor < Word.limit
  totals : collector.totals.HasRoomFor kinds collector.heap.directory.live
    collector.heap.directory.bytes
  fieldCount : collector.heap.directory.fieldCount < Word.limit
  hears : collector.Hears (2 * kinds.length) (3 * kinds.count .minor)

/-! ## Parts of a cycle -/

theorem Hears.exists_enter {events requests : Nat} (hears : collector.Hears (events + 1) requests)
    (idle : collector.phase = .idle) (cycle : collector.cycle + 1 < Word.limit)
    (kind : CycleKind) : ∃ hearer waiting after,
      collector.enter kind = .ok after ∧
      after = { collector with
        hearer, requests := waiting, cycle := collector.cycle + 1, phase := .during kind } ∧
      after.Hears events requests := by
  have waits : Hears { collector with
      requests := collector.requests.clear kind
      cycle := collector.cycle + 1
      phase := .during kind } (events + 1) requests := by
    intro heard short
    have dropped : (collector.requests.clear kind).dropped = collector.requests.dropped := by
      cases kind with
      | minor => rfl
      | major => rfl
    rw [dropped]
    exact hears heard short
  obtain ⟨hearer, waiting, emitted, still⟩ :=
    waits.exists_emit (.started kind (collector.cycle + 1))
  refine ⟨hearer, waiting, _, ?_, rfl, still⟩
  unfold enter
  apply bind_of_eq_ok (Word.add_of_lt cycle)
  rw [if_neg (not_not.mpr idle)]
  exact emitted

theorem Hears.exists_conclude {events requests : Nat} {report : CycleReport} {totals : Totals}
    (hears : collector.Hears (events + 1) requests)
    (recorded : collector.totals.record report = .ok totals) : ∃ hearer waiting after,
      collector.conclude report = .ok after ∧
      after = { collector with totals, hearer, requests := waiting } ∧
      after.Hears events requests := by
  have counted : Hears { collector with totals } (events + 1) requests := hears
  obtain ⟨hearer, waiting, emitted, still⟩ := counted.exists_emit (.finished report)
  exact ⟨hearer, waiting, _, bind_of_eq_ok recorded emitted, rfl, still⟩

omit [Listener Hearer] in
theorem answers_tune [PromotionPolicy Policy]
    (room : collector.totals.thresholdChanges + 1 < Word.limit) :
    Answers collector.tune := by
  unfold tune
  dsimp only
  split
  · exact answers_pure _
  · split
    · exact Answers.bind ⟨_, Word.add_of_lt room⟩ fun _ _ => answers_pure _
    · exact answers_pure _

theorem Hears.exists_checkTriggers {events requests : Nat}
    (hears : collector.Hears events (requests + 3))
    (room : collector.totals.promotionFailures + 1 < Word.limit) (promotionFailed : Bool) :
    ∃ waiting after, collector.checkTriggers promotionFailed = .ok after ∧
      after = { collector with
        requests := waiting
        totals := { collector.totals with
          promotionFailures := collector.totals.promotionFailures + promotionFailed.toNat } } ∧
      after.Hears events requests := by
  have waits : Hears { collector with
      totals := { collector.totals with
        promotionFailures := collector.totals.promotionFailures + promotionFailed.toNat } }
      events (requests + 3) := hears
  obtain ⟨_, first, waits⟩ := waits.exists_requestMajorIf promotionFailed
  obtain ⟨_, second, waits⟩ := waits.exists_requestMajorIf
    (decide (collector.heap.old.occupancy ≥ collector.heap.settings.oldGrowthTrigger))
  obtain ⟨waiting, third, waits⟩ := waits.exists_requestMajorIf
    (decide (collector.heap.settings.majorCycleInterval.toNat > 0) &&
      decide (collector.minorsSinceMajor ≥ collector.heap.settings.majorCycleInterval.toNat))
  refine ⟨waiting, _, ?_, rfl, waits⟩
  unfold checkTriggers
  cases promotionFailed with
  | false =>
      simp only [Bool.false_eq_true, ↓reduceIte, pure_bind]
      apply bind_of_eq_ok first
      exact bind_of_eq_ok second third
  | true =>
      simp only [↓reduceIte]
      apply bind_of_eq_ok (Word.add_of_lt room)
      apply bind_of_eq_ok first
      exact bind_of_eq_ok second third

/-- After a minor cycle the threshold is tuned and the triggers are checked. -/
theorem Hears.exists_tuned [PromotionPolicy Policy] {events requests : Nat}
    (hears : collector.Hears events (requests + 3))
    (failures : collector.totals.promotionFailures + 1 < Word.limit)
    (changes : collector.totals.thresholdChanges + 1 < Word.limit) (promotionFailed : Bool) :
    ∃ tuned policy threshold waiting promotionFailures thresholdChanges after,
      collector.tune = .ok tuned ∧ tuned.checkTriggers promotionFailed = .ok after ∧
      promotionFailures ≤ collector.totals.promotionFailures + 1 ∧
      thresholdChanges ≤ collector.totals.thresholdChanges + 1 ∧
      after = { collector with
        policy
        requests := waiting
        heap := (collector.heap.setThreshold threshold).2
        totals := { collector.totals with promotionFailures, thresholdChanges } } ∧
      after.Hears events requests := by
  obtain ⟨tuned, tune⟩ := answers_tune changes
  obtain ⟨policy, threshold, thresholdChanges, changed, rfl⟩ := tune_eq_ok tune
  have waits : Hears { collector with
      policy
      heap := (collector.heap.setThreshold threshold).2
      totals := { collector.totals with thresholdChanges } } events (requests + 3) := hears
  obtain ⟨waiting, after, checked, same, still⟩ :=
    waits.exists_checkTriggers failures promotionFailed
  exact ⟨_, policy, threshold, waiting, _, thresholdChanges, after, tune, checked,
    Nat.add_le_add_left (Bool.toNat_le _) _, changed, same, still⟩

/-! ## Cycles -/

variable {Roots : Type} [RootProvider Roots]

/-- A cycle has been counted. There is room for the other cycles, also when a minor cycle
still counts a promotion failure and a change of the threshold. -/
structure Concluded (kind : CycleKind) (kinds : List CycleKind) (heap : Heap WindowedMemory)
    (collector : Collector WindowedMemory Policy Hearer) : Prop where
  heap_eq : collector.heap = heap
  cycle : collector.cycle + kinds.length < Word.limit
  minorsSinceMajor : collector.minorsSinceMajor + (kind :: kinds).count .minor < Word.limit
  promotionFailures :
    collector.totals.promotionFailures + (kind :: kinds).count .minor < Word.limit
  thresholdChanges :
    collector.totals.thresholdChanges + (kind :: kinds).count .minor < Word.limit
  totals : ∀ promotionFailures thresholdChanges,
    promotionFailures ≤ collector.totals.promotionFailures + [kind].count .minor →
    thresholdChanges ≤ collector.totals.thresholdChanges + [kind].count .minor →
    Totals.HasRoomFor kinds heap.directory.live heap.directory.bytes
      { collector.totals with promotionFailures, thresholdChanges }
  fieldCount : heap.directory.fieldCount < Word.limit
  hears : collector.Hears (2 * kinds.length) (3 * (kind :: kinds).count .minor)

omit [RootProvider Roots] in
theorem HasRoomFor.exists_concluded {kinds : List CycleKind}
    {report : CycleReport} {heap : Heap WindowedMemory}
    (room : collector.HasRoomFor (report.kind :: kinds)) (idle : collector.phase = .idle)
    (reclaims : collector.heap.Reclaims heap report.objectsReclaimed report.bytesReclaimed)
    (promoted : report.promoted ≤
      [report.kind].count .minor * collector.heap.directory.live)
    (fields : heap.directory.fieldCount ≤ collector.heap.directory.fieldCount)
    (marker : Marker) : ∃ hearer waiting concluded,
      collector.enter report.kind = .ok { collector with
        hearer, requests := waiting, cycle := collector.cycle + 1
        phase := .during report.kind } ∧
      conclude { collector with
        heap, marker, hearer, requests := waiting, cycle := collector.cycle + 1
        phase := .idle } report = .ok concluded ∧
      concluded.Concluded report.kind kinds heap := by
  obtain ⟨cycles, minors, totalsRoom, countable, hears⟩ := room
  rw [List.length_cons] at cycles hears
  obtain ⟨hearer, waiting, _, entered, rfl, hears⟩ := hears.exists_enter idle
    (show collector.cycle + 1 < Word.limit by omega) report.kind
  obtain ⟨totals, recorded, failures, changes, left⟩ :=
    totalsRoom.exists_record reclaims.objects reclaims.bytes promoted
  have collected : Hears { collector with
      heap, marker, hearer, requests := waiting, cycle := collector.cycle + 1
      phase := .idle } (2 * kinds.length + 1) (3 * (report.kind :: kinds).count .minor) := hears
  obtain ⟨_, _, concluded, conclude, same, hears⟩ := collected.exists_conclude recorded
  refine ⟨hearer, waiting, concluded, entered, conclude, ?_⟩
  subst same
  exact
    { heap_eq := rfl
      cycle := by dsimp only; omega
      minorsSinceMajor := minors
      promotionFailures := failures ▸ totalsRoom.promotionFailures
      thresholdChanges := changes ▸ totalsRoom.thresholdChanges
      totals := failures ▸ changes ▸ left
      fieldCount := Nat.lt_of_le_of_lt fields countable
      hears }

theorem exists_collectMajor {kinds : List CycleKind} (rests : collector.Rests)
    (room : collector.HasRoomFor (.major :: kinds)) (roots : Roots) :
    ∃ report after, collector.collectMajor roots = .ok (.ok report, after) ∧
      after.HasRoomFor kinds := by
  have sound := rests.ready.sound
  have completes : collector.heap.Completes
      (.majorCycle collector.marker (collector.liveRoots roots)) :=
    rests.ready.completes trivial room.fieldCount
  obtain ⟨outcome, heap, next, cycle⟩ := completes
  have fields := (sound.retains_of_majorCycle cycle).fieldCount_le sound.consistent
    (sound.majorCycle cycle).consistent
  have enough : collector.HasRoomFor ((outcome.report (collector.cycle + 1)).kind :: kinds) := room
  obtain ⟨hearer, waiting, concluded, entered, conclude, left⟩ :=
    enough.exists_concluded rests.idle (sound.reclaims_of_majorCycle cycle) (Nat.zero_le _)
      fields next
  refine ⟨outcome.report (collector.cycle + 1), { concluded with minorsSinceMajor := 0 }, ?_, ?_⟩
  · unfold collectMajor
    simp only [checkPoison_eq_ok_iff.mpr rests.healthy]
    apply bind_of_eq_ok entered
    apply bind_of_eq_ok cycle
    exact bind_of_eq_ok conclude rfl
  · obtain ⟨rfl, cycles, minors, _, _, totals, countable, hears⟩ := left
    exact
      { cycle := cycles
        minorsSinceMajor := Nat.lt_of_le_of_lt (Nat.add_le_add_right (Nat.zero_le _) _) minors
        totals := totals _ _ (Nat.le_add_right _ _) (Nat.le_add_right _ _)
        fieldCount := countable
        hears }

theorem exists_collectMinor [PromotionPolicy Policy] {kinds : List CycleKind}
    (rests : collector.Rests) (room : collector.HasRoomFor (.minor :: kinds)) (roots : Roots) :
    ∃ report after, collector.collectMinor roots = .ok (.ok report, after) ∧
      after.HasRoomFor kinds := by
  have sound := rests.ready.sound
  have completes : collector.heap.Completes
      (.minorCycle collector.marker (collector.liveRoots roots)) :=
    rests.ready.completes trivial room.fieldCount
  obtain ⟨outcome, heap, next, cycle⟩ := completes
  have fields := (sound.retains_of_minorCycle cycle).fieldCount_le sound.consistent
    (sound.minorCycle cycle).consistent
  have promoted := sound.promoted_le cycle
  rw [← Nat.one_mul collector.heap.directory.live] at promoted
  have enough : collector.HasRoomFor ((outcome.report (collector.cycle + 1)).kind :: kinds) := room
  obtain ⟨hearer, waiting, concluded, entered, conclude, left⟩ :=
    enough.exists_concluded rests.idle (sound.reclaims_of_minorCycle cycle) promoted fields next
  obtain ⟨rfl, cycles, minors, failures, changes, totals, countable, hears⟩ := left
  have one : ((outcome.report (collector.cycle + 1)).kind :: kinds).count .minor =
      kinds.count .minor + 1 := List.count_cons_self
  rw [one] at minors failures changes hears
  have waits : Hears { concluded with minorsSinceMajor := concluded.minorsSinceMajor + 1 }
      (2 * kinds.length) (3 * kinds.count .minor + 3) := hears
  obtain ⟨tuned, policy, threshold, _, _, _, after, tune, check, failed, changed, same, hears⟩ :=
    waits.exists_tuned (show concluded.totals.promotionFailures + 1 < Word.limit by omega)
      (show concluded.totals.thresholdChanges + 1 < Word.limit by omega) outcome.promotionFailed
  refine ⟨outcome.report (collector.cycle + 1), after, ?_, ?_⟩
  · unfold collectMinor
    simp only [checkPoison_eq_ok_iff.mpr rests.healthy]
    apply bind_of_eq_ok entered
    apply bind_of_eq_ok cycle
    apply bind_of_eq_ok conclude
    apply bind_of_eq_ok (Word.add_of_lt (show concluded.minorsSinceMajor + 1 < Word.limit by omega))
    apply bind_of_eq_ok tune
    exact bind_of_eq_ok check rfl
  · subst same
    have directory := concluded.heap.directory_setThreshold threshold
    exact
      { cycle := cycles
        minorsSinceMajor := by dsimp only; omega
        totals := by
          dsimp only
          rw [directory]
          exact totals _ _ failed changed
        fieldCount := by
          dsimp only
          rw [directory]
          exact countable
        hears }

/-! ## Allocations -/

section Allocations

variable {size fieldCount : Nat}

omit [Listener Hearer] in
theorem Rests.stopsOnlyIf_tryAllocate (rests : collector.Rests)
    (small : size + granule < Word.limit) (fieldCount : Nat) :
    StopsOnlyIf (Heap.Unstorable fieldCount) .tableTooLarge
      (collector.tryAllocate size fieldCount) :=
  (Heap.stopsOnlyIf_tryAllocate rests.ready.sound.consistent rests.ready.addressable small
    fieldCount).bind fun _ _ => (answers_pure _).stopsOnlyIf

omit [Listener Hearer] in
theorem unchanged_of_tryAllocate {after : Collector WindowedMemory Policy Hearer}
    (ran : collector.tryAllocate size fieldCount = .ok (none, after)) : after = collector := by
  rcases tryAllocate_eq_ok ran with ⟨_, same, _⟩ | ⟨_, _, found, _⟩
  · exact same
  · cases found

omit [Listener Hearer] in
theorem Rests.answers_giveUp (rests : collector.Rests) (small : size + granule < Word.limit)
    (room : collector.totals.allocationFailures + 1 < Word.limit) :
    Answers (collector.giveUp size) := by
  have free : ∀ space, Answers (collector.heap.arena space).free := fun space =>
    ⟨_, Arena.free_eq_ok_iff.mpr ⟨(rests.ready.wellFormed space).used_le, rfl⟩⟩
  refine Answers.bind ⟨_, Word.add_of_lt room⟩ fun _ _ => ?_
  refine (answers_alignSize small).bind fun _ _ => ?_
  exact (free .eden).bind fun _ _ => (free .old).bind fun _ _ => answers_pure _

theorem Rests.stopsOnlyIf_allocateAfterMajor (rests : collector.Rests)
    (small : size + granule < Word.limit) (room : collector.HasRoomFor [.major])
    (roots : Roots) (fieldCount : Nat) :
    StopsOnlyIf (Heap.Unstorable fieldCount) .tableTooLarge
      (collector.allocateAfterMajor roots size fieldCount) := by
  obtain ⟨report, swept, major, left⟩ := exists_collectMajor rests room roots
  have sweptRests := (cycled_of_collectMajor rests major).1.rests
  unfold allocateAfterMajor
  apply stopsOnlyIf_bind_of_eq_ok major
  apply (sweptRests.stopsOnlyIf_tryAllocate small fieldCount).bind
  rintro ⟨placed, tried⟩ attempt
  cases placed with
  | some handle => exact (answers_pure _).stopsOnlyIf
  | none =>
      obtain rfl := unchanged_of_tryAllocate attempt
      have gaveUp := sweptRests.answers_giveUp small left.totals.allocationFailures
      exact (gaveUp.bind fun _ _ => answers_pure _).stopsOnlyIf

variable [PromotionPolicy Policy]

theorem Rests.stopsOnlyIf_allocateAfterMinor (rests : collector.Rests)
    (small : size + granule < Word.limit) (room : collector.HasRoomFor [.minor, .major])
    (roots : Roots) (fieldCount : Nat) :
    StopsOnlyIf (Heap.Unstorable fieldCount) .tableTooLarge
      (collector.allocateAfterMinor roots size fieldCount) := by
  obtain ⟨report, cleared, minor, left⟩ := exists_collectMinor rests room roots
  have clearedRests := (cycled_of_collectMinor rests minor).1.rests
  unfold allocateAfterMinor
  apply stopsOnlyIf_bind_of_eq_ok minor
  apply (clearedRests.stopsOnlyIf_tryAllocate small fieldCount).bind
  rintro ⟨placed, tried⟩ attempt
  cases placed with
  | some handle => exact (answers_pure _).stopsOnlyIf
  | none =>
      obtain rfl := unchanged_of_tryAllocate attempt
      exact clearedRests.stopsOnlyIf_allocateAfterMajor small left roots fieldCount

/-- An allocation that no counter stops ends with an object or with a failure, if the fields
of the object can be stored. -/
theorem Rests.stopsOnlyIf_allocate (rests : collector.Rests)
    (small : size + granule < Word.limit) (room : collector.HasRoomFor [.minor, .major])
    (roots : Roots) (fieldCount : Nat) :
    StopsOnlyIf (Heap.Unstorable fieldCount) .tableTooLarge
      (collector.allocate roots size fieldCount) := by
  simp only [allocate, checkPoison_eq_ok_iff.mpr rests.healthy]
  apply (rests.stopsOnlyIf_tryAllocate small fieldCount).bind
  rintro ⟨placed, tried⟩ attempt
  cases placed with
  | some handle => exact (answers_pure _).stopsOnlyIf
  | none =>
      obtain rfl := unchanged_of_tryAllocate attempt
      exact rests.stopsOnlyIf_allocateAfterMinor small room roots fieldCount

theorem Rests.answers_allocate (rests : collector.Rests) (small : size + granule < Word.limit)
    (storable : fieldCount * fieldWidth ≤ Word.largestTable)
    (room : collector.HasRoomFor [.minor, .major]) (roots : Roots) :
    Answers (collector.allocate roots size fieldCount) :=
  (rests.stopsOnlyIf_allocate small room roots fieldCount).answers (Nat.not_lt_of_le storable)

end Allocations

end Collector

end Counters

end Tenure
