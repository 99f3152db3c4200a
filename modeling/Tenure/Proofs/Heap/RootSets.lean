import Tenure.Proofs.Heap.Addressable
import Tenure.Proofs.Heap.Schedule

/-!
# Root sets decide cycles

How a cycle ends depends on the heap and on which live objects its roots name: young ones
for a minor cycle, any for a major one. The order of the roots, repeats, handles without
effect and the earlier work of the marker leave no trace in it. The settings for marking
show in the number of steps alone.
-/

set_option autoImplicit false

namespace Tenure.Heap

variable {Source : Type}

/-! ## The end of a cycle -/

/-- How a cycle ends after its marking, if neither traps. -/
def endAfter {Outcome : Type} (marking : Checked (Answer HandleSet × Marker))
    (refused : Heap Source)
    (reclaim : (Handle → Bool) → Nat → TraceCounts → Checked (Outcome × Heap Source)) :
    Option (Answer Outcome × Heap Source) :=
  marking.toOption.bind fun (reached, marker) =>
    match reached with
    | .error failure => some (.error failure, refused)
    | .ok reached =>
      (reclaim reached.contains reached.size marker.counts).toOption.map
        fun (outcome, after) => (.ok outcome, after)

theorem traceInSteps_toOption_eq_none {graph : Graph} {limit : ScanLimit} {roots : List Handle}
    (marker : Marker) (budget : Nat) (verified : Bool) (unfit : ¬ graph.ReferencesFit limit roots) :
    (marker.traceInSteps graph limit roots budget verified).toOption = none := by
  cases ran : marker.traceInSteps graph limit roots budget verified with
  | error trap => rfl
  | ok result => exact absurd (Marker.referencesFit_of_traceInSteps ran) unfit

/-- Two traces from the same admitted roots end alike whatever follows, if what follows
treats the counts alike. -/
theorem endAfter_rescheduled {Outcome : Type} {graph : Graph} {limit : ScanLimit}
    {roots others : List Handle} {budget budget' : Nat} {heap heap' : Heap Source}
    {reclaim reclaim' : (Handle → Bool) → Nat → TraceCounts → Checked (Outcome × Heap Source)}
    (recount : Outcome → Outcome) (image : Heap Source → Heap Source)
    (same : SameRoots limit roots others) (positive : 0 < budget) (positive' : 0 < budget')
    (corresponds : ∀ reached size counts,
      reclaim' reached size (counts.rescheduled budget') =
        (fun (outcome, after) => (recount outcome, image after)) <$> reclaim reached size counts)
    (marker other : Marker) (verified verified' : Bool) :
    endAfter (other.traceInSteps graph limit others budget' verified') heap' reclaim' =
      (endAfter (marker.traceInSteps graph limit roots budget verified) heap reclaim).map
        fun (answer, after) => (answer.map recount, image after) := by
  by_cases fit : graph.ReferencesFit limit roots
  · obtain ⟨reached, next, traced, marks⟩ := marker.traceInSteps_total verified fit positive
    obtain ⟨reached', next', traced', marks'⟩ :=
      other.traceInSteps_total verified' (same.referencesFit fit) positive'
    obtain ⟨contains, size, counts⟩ := marks.alike marks' same
    rw [traced, traced']
    simp only [endAfter, Except.toOption, Option.bind_some, contains, size, counts, corresponds]
    cases reclaim reached.contains reached.size next.counts with
    | error trap => rfl
    | ok result => rfl
  · have unfit : ¬ graph.ReferencesFit limit others :=
      fun fits => fit (same.symm.referencesFit fits)
    rw [endAfter, endAfter, traceInSteps_toOption_eq_none marker budget verified fit,
      traceInSteps_toOption_eq_none other budget' verified' unfit]
    rfl

section Source

variable [MemorySource Source]

/-- How a minor cycle ends, unless it traps. The state of the marker is left out. -/
def minorEnd (heap : Heap Source) (marker : Marker) (roots : List Handle) :
    Option (Answer MinorOutcome × Heap Source) :=
  (heap.minorCycle marker roots).toOption.map fun (answer, after, _) => (answer, after)

def majorEnd (heap : Heap Source) (marker : Marker) (roots : List Handle) :
    Option (Answer MajorOutcome × Heap Source) :=
  (heap.majorCycle marker roots).toOption.map fun (answer, after, _) => (answer, after)

theorem minorEnd_eq (heap : Heap Source) (marker : Marker) (roots : List Handle) :
    heap.minorEnd marker roots = (heap.scanCards roots).toOption.bind fun scan =>
      endAfter (marker.traceInSteps heap.directory.graph heap.directory.isYoung
          (roots ++ scan.remembered) heap.settings.stepBudget.toNat heap.settings.verifyAfterTrace)
        { heap with cards := scan.cards } ({ heap with cards := scan.cards }.reclaimYoung scan) := by
  rw [minorEnd, minorCycle_eq]
  cases heap.scanCards roots with
  | error trap => rfl
  | ok scan =>
      dsimp only [endAfter, Except.toOption, bind, Except.bind, Option.bind]
      cases marker.traceInSteps heap.directory.graph heap.directory.isYoung
          (roots ++ scan.remembered) heap.settings.stepBudget.toNat
          heap.settings.verifyAfterTrace with
      | error trap => rfl
      | ok traced =>
          obtain ⟨answer, marked⟩ := traced
          cases answer with
          | error failure => rfl
          | ok reached =>
              dsimp only
              cases { heap with cards := scan.cards }.reclaimYoung scan reached.contains
                  reached.size marked.counts with
              | error trap => rfl
              | ok result => rfl

theorem majorEnd_eq (heap : Heap Source) (marker : Marker) (roots : List Handle) :
    heap.majorEnd marker roots =
      endAfter (marker.traceInSteps heap.directory.graph heap.directory.isLive roots
          heap.settings.stepBudget.toNat heap.settings.verifyAfterTrace)
        heap (fun reached _ counts => heap.reclaimAll reached counts) := by
  rw [majorEnd, majorCycle_eq]
  dsimp only [endAfter, Except.toOption, bind, Except.bind, Option.bind]
  cases marker.traceInSteps heap.directory.graph heap.directory.isLive roots
      heap.settings.stepBudget.toNat heap.settings.verifyAfterTrace with
  | error trap => rfl
  | ok traced =>
      obtain ⟨answer, marked⟩ := traced
      cases answer with
      | error failure => rfl
      | ok reached =>
          dsimp only
          cases heap.reclaimAll reached.contains marked.counts with
          | error trap => rfl
          | ok result => rfl

/-! ## Other settings for marking -/

theorem toNat_pos_of_ne_zero {budget : UInt64} (some : budget ≠ 0) : 0 < budget.toNat :=
  Nat.pos_of_ne_zero fun zero => some (UInt64.toNat_inj.mp zero)

theorem scanCards_congr {Source : Type} {heap : Heap Source} {roots others : List Handle}
    (same : SameRoots heap.directory.isYoung roots others) :
    heap.scanCards roots = heap.scanCards others := by
  have filtered : ∀ holders, (heap.youngTargets holders).filter
        (fun target => !(HandleSet.of roots).contains target) =
      (heap.youngTargets holders).filter
        fun target => !(HandleSet.of others).contains target := by
    intro holders
    refine List.filter_congr fun target member => ?_
    have young : heap.directory.isYoung target = true := by
      obtain ⟨holder, _, listed⟩ := List.mem_flatMap.mp member
      exact (List.mem_filter.mp listed).2
    have contains : (HandleSet.of roots).contains target =
        (HandleSet.of others).contains target := by
      rw [Bool.eq_iff_iff, HandleSet.contains_of, HandleSet.contains_of, same target young]
    rw [contains]
  unfold scanCards
  simp only [filtered]

variable {heap : Heap Source} {budget : UInt64} {roots others : List Handle}

theorem minorEnd_withSchedule (positive : 0 < heap.settings.stepBudget.toNat)
    (some : budget ≠ 0) (verified : Bool)
    (same : SameRoots heap.directory.isYoung roots others) (marker other : Marker) :
    (heap.withSchedule budget verified).minorEnd other others =
      (heap.minorEnd marker roots).map fun (answer, after) =>
        (answer.map (MinorOutcome.rescheduled budget.toNat),
          after.withSchedule budget verified) := by
  have scanned : (heap.withSchedule budget verified).scanCards others = heap.scanCards roots :=
    (scanCards_congr same).symm
  rw [minorEnd_eq, minorEnd_eq, scanned]
  cases heap.scanCards roots with
  | error trap => rfl
  | ok scan =>
      exact endAfter_rescheduled (MinorOutcome.rescheduled budget.toNat)
        (withSchedule · budget verified) (same.append_right scan.remembered) positive
        (toNat_pos_of_ne_zero some)
        (reclaimYoung_withSchedule { heap with cards := scan.cards } budget verified scan)
        marker other heap.settings.verifyAfterTrace verified

theorem majorEnd_withSchedule (positive : 0 < heap.settings.stepBudget.toNat)
    (some : budget ≠ 0) (verified : Bool)
    (same : SameRoots heap.directory.isLive roots others) (marker other : Marker) :
    (heap.withSchedule budget verified).majorEnd other others =
      (heap.majorEnd marker roots).map fun (answer, after) =>
        (answer.map (MajorOutcome.rescheduled budget.toNat),
          after.withSchedule budget verified) := by
  rw [majorEnd_eq, majorEnd_eq]
  exact endAfter_rescheduled (MajorOutcome.rescheduled budget.toNat)
    (withSchedule · budget verified) same positive (toNat_pos_of_ne_zero some)
    (fun reached _ counts => reclaimAll_withSchedule heap budget verified reached counts)
    marker other heap.settings.verifyAfterTrace verified

/-! ## Attainable heaps -/

theorem Reshapes.settings {heap after : Heap Source} (reshapes : heap.Reshapes after) :
    after.settings = heap.settings := by
  induction reshapes with
  | same same => exact same.settings
  | grown spans grows =>
      cases grows with
      | unasked => rfl
      | asked ran => exact (growOld_eq_ok spans ran).1.settings
  | trans _ _ first second => exact second.trans first

/-- No operation changes the settings. -/
theorem Sound.settings_of_attains {heap after : Heap Source} (sound : heap.Sound)
    (attains : heap.Attains after) : after.settings = heap.settings := by
  obtain ⟨operations, performed⟩ := attains
  exact (Checked.foldlM_induction (fun _ current => Heap.Sound current ∧
    current.settings = heap.settings) performed ⟨sound, rfl⟩
    fun seen operation rest current next split holds stepped =>
      ⟨holds.1.perform stepped,
        (reshapes_of_perform holds.1.consistent stepped).settings.trans holds.2⟩).2

/-- New heaps have a budget for marking. -/
theorem Attainable.stepBudget_ne_zero {heap : Heap Source} (attainable : heap.Attainable) :
    heap.settings.stepBudget ≠ 0 := by
  obtain ⟨settings, memory, initial, operations, created, performed⟩ := attainable
  have kept := (sound_of_create created).settings_of_attains ⟨operations, performed⟩
  obtain ⟨_, _, _, creation⟩ := creation_of_create created
  rw [kept, creation.settings_eq]
  exact (validate_eq_ok creation.valid).2

/-- What decides how the cycles of a heap end. Heaps that differ in the settings for
marking alone end alike up to these settings and to the number of steps. -/
structure DecidedByRoots (heap : Heap Source) : Prop where
  minor : ∀ marker other roots others, SameRoots heap.directory.isYoung roots others →
    heap.minorEnd marker roots = heap.minorEnd other others
  major : ∀ marker other roots others, SameRoots heap.directory.isLive roots others →
    heap.majorEnd marker roots = heap.majorEnd other others
  rescheduledMinor : ∀ marker other roots others budget verified, budget ≠ 0 →
    SameRoots heap.directory.isYoung roots others →
    (heap.withSchedule budget verified).minorEnd other others =
      (heap.minorEnd marker roots).map fun (answer, after) =>
        (answer.map (MinorOutcome.rescheduled budget.toNat), after.withSchedule budget verified)
  rescheduledMajor : ∀ marker other roots others budget verified, budget ≠ 0 →
    SameRoots heap.directory.isLive roots others →
    (heap.withSchedule budget verified).majorEnd other others =
      (heap.majorEnd marker roots).map fun (answer, after) =>
        (answer.map (MajorOutcome.rescheduled budget.toNat), after.withSchedule budget verified)

theorem cycles_decided_by_roots {heap : Heap Source} (attainable : heap.Attainable) :
    heap.DecidedByRoots := by
  have some := attainable.stepBudget_ne_zero
  have positive := toNat_pos_of_ne_zero some
  constructor
  · intro marker other roots others same
    -- Under its own settings a heap is the same heap with other settings.
    have own := minorEnd_withSchedule positive some heap.settings.verifyAfterTrace
      (.refl _ roots) marker marker
    have with_others := minorEnd_withSchedule positive some heap.settings.verifyAfterTrace
      same marker other
    exact own.trans with_others.symm
  · intro marker other roots others same
    have own := majorEnd_withSchedule positive some heap.settings.verifyAfterTrace
      (.refl _ roots) marker marker
    have with_others := majorEnd_withSchedule positive some heap.settings.verifyAfterTrace
      same marker other
    exact own.trans with_others.symm
  · intro marker other roots others budget verified given same
    exact minorEnd_withSchedule positive given verified same marker other
  · intro marker other roots others budget verified given same
    exact majorEnd_withSchedule positive given verified same marker other

end Source

/-- No object has ever had this handle. -/
def unusedHandle : Handle := { slot := 7, epoch := 0 }

/-- The second object is the only young one among these roots. -/
def scatteredRoots : List Handle := [unusedHandle, secondHandle, firstHandle, secondHandle]

theorem cycles_decided_by_roots_when_scattered : ∃ heap : Heap WindowedMemory,
    heap.Attainable ∧ (heap.minorEnd .fresh [secondHandle]).isSome = true ∧
      heap.minorEnd .fresh [secondHandle] =
        heap.minorEnd (Marker.fresh.shade firstHandle).2 scatteredRoots ∧
      (heap.withSchedule 1 false).minorEnd .fresh scatteredRoots =
        (heap.minorEnd .fresh [secondHandle]).map fun (answer, after) =>
          (answer.map (MinorOutcome.rescheduled 1), after.withSchedule 1 false) := by
  obtain ⟨heap, attainable, facts⟩ := attainable_of_leadsTo
    (show leadsTo smallSettings (WindowedMemory.fresh none) promotingOperations
      (fun heap => (heap.minorEnd .fresh [secondHandle]).isSome &&
        (!heap.directory.isYoung unusedHandle && !heap.directory.isYoung firstHandle)) = true
      by decide +kernel)
  simp only [Bool.and_eq_true, Bool.not_eq_true'] at facts
  obtain ⟨ends, unused, old⟩ := facts
  have same : SameRoots heap.directory.isYoung [secondHandle] scatteredRoots := by
    intro handle young
    have used : handle ≠ unusedHandle := fun same => by simp [← same, young] at unused
    have notOld : handle ≠ firstHandle := fun same => by simp [← same, young] at old
    simp [scatteredRoots, used, notOld]
  have decided := cycles_decided_by_roots attainable
  exact ⟨heap, attainable, ends, decided.minor _ _ _ _ same,
    decided.rescheduledMinor .fresh .fresh _ _ 1 false (by decide) same⟩

end Tenure.Heap
