import Tenure.Proofs.Heap.Remembering
import Tenure.Proofs.Heap.Sliding
import Tenure.Proofs.Heap.Survivors
import Tenure.Proofs.Marking.Trace

/-!
# Minor cycles keep heaps sound

A minor cycle is followed stage by stage: the sweep leaves the survivors, their
evacuation settles the spaces that receive them, the slides settle the spaces that they
left, and at the end the holders are remembered again.
-/

set_option autoImplicit false

namespace Tenure.Heap

variable {Source : Type}

def youngHandles (heap : Heap Source) : List Handle :=
  (heap.survivor heap.holding).handles ++ heap.eden.handles

theorem Consistent.nodup_youngHandles {heap : Heap Source} (consistent : heap.Consistent) :
    heap.youngHandles.Nodup := by
  refine List.nodup_append.mpr ⟨(consistent.fills (.survivor heap.holding)).distinct,
    (consistent.fills .eden).distinct, fun handle member other otherMember same => ?_⟩
  obtain ⟨record, found, here⟩ :=
    (consistent.fills (.survivor heap.holding)).mem_handles_iff.mp member
  obtain ⟨second, secondFound, there⟩ :=
    (consistent.fills .eden).mem_handles_iff.mp otherMember
  rw [← same, found, Option.some.injEq] at secondFound
  subst secondFound
  simp [here] at there

theorem youngHandles_subset (heap : Heap Source) : heap.youngHandles ⊆ heap.residents := by
  intro handle member
  rw [residents, List.mem_flatMap]
  rcases List.mem_append.mp member with inSurvivor | inEden
  · exact ⟨.survivor heap.holding, Space.mem_all _, inSurvivor⟩
  · exact ⟨.eden, Space.mem_all _, inEden⟩

/-- What a minor cycle finds out before it moves an object. -/
structure MinorMarking where
  found : List Handle
  cards : CardTable
  reached : HandleSet
  tally : Tally
  directory : Directory

/-- What a minor cycle finds out on its way. -/
structure MinorStages (Source : Type) extends MinorMarking where
  evacuation : Evacuation Source
  vacated : Heap Source

namespace MinorMarking

variable (marking : MinorMarking) (heap : Heap Source)

def holders : List Handle := (HandleSet.of marking.found).toList

def survivors : List Handle := heap.youngHandles.filter marking.reached.contains

def dead : List Handle := heap.youngHandles.filter fun handle => !marking.reached.contains handle

def swept : Heap Source := { heap with cards := marking.cards, directory := marking.directory }

theorem arena_swept (space : Space) : (marking.swept heap).arena space = heap.arena space :=
  arena_congr rfl rfl rfl rfl space

/-- The survivors are known and the dead are swept. -/
structure Run (roots : List Handle) : Prop where
  unoccupied : (heap.survivor heap.holding.other).residents.isEmpty = true
  scanned : heap.cards.scanAll heap.cardView heap.cards.dirty = .ok (marking.found, marking.cards)
  reached : ∀ handle, marking.reached.contains handle = true ↔
    Reachable heap.directory.graph heap.directory.isYoung
      (roots ++ heap.youngTargets marking.holders) handle
  sweep : heap.directory.sweep (marking.dead heap) = .ok (marking.tally, marking.directory)

end MinorMarking

/-- The stages of a minor cycle follow from each other. -/
structure MinorStages.Run [MemorySource Source] (stages : MinorStages Source)
    (heap : Heap Source) (roots : List Handle) (after : Heap Source) : Prop
    extends stages.toMinorMarking.Run heap roots where
  evacuated : (stages.swept heap).evacuateAll heap.holding.other (stages.survivors heap) =
    .ok stages.evacuation
  vacate : stages.evacuation.heap.vacate stages.evacuation.retained = .ok stages.vacated
  remembered : ∃ remembered survival,
    stages.vacated.remember (stages.holders ++ stages.evacuation.promoted) = .ok remembered ∧
      after = { remembered with survival }

/-- What a minor cycle reports about its stages. -/
structure MinorStages.Reports (stages : MinorStages Source) (outcome : MinorOutcome) : Prop where
  objectsReclaimed : outcome.objectsReclaimed = stages.tally.objects
  bytesReclaimed : outcome.bytesReclaimed = stages.tally.bytes
  survived : outcome.survived = stages.evacuation.count .copied
  promoted : outcome.promoted = stages.evacuation.count (.promoted false)
  overflowPromoted : outcome.overflowPromoted = stages.evacuation.count (.promoted true)
  retained : outcome.retained = stages.evacuation.count .retained
  promotionFailed : outcome.promotionFailed = stages.evacuation.promotionFailed

/-- What a minor cycle reports about its marking and about the survival of young objects. -/
structure MinorStages.Measures (stages : MinorStages Source) (heap : Heap Source)
    (marker : Marker) (roots : List Handle) (next : Marker) (outcome : MinorOutcome) :
    Prop where
  traced : marker.traceInSteps heap.directory.graph heap.directory.isYoung
    (roots ++ heap.youngTargets stages.holders) heap.settings.stepBudget.toNat
    heap.settings.verifyAfterTrace = .ok (.ok stages.reached, next)
  trace : outcome.trace = next.counts
  cardRoots : outcome.cardRoots = ((heap.youngTargets stages.holders).filter
    fun target => !(HandleSet.of roots).contains target).length
  youngBefore : outcome.survival.youngBefore = heap.youngHandles.length
  reached : outcome.survival.survived = stages.reached.size
  promoted : outcome.survival.promoted = outcome.promoted + outcome.overflowPromoted

theorem minorCycle_measures [MemorySource Source] {heap after : Heap Source}
    {marker next : Marker} {roots : List Handle} {answer : Answer MinorOutcome}
    (ran : heap.minorCycle marker roots = .ok (answer, after, next)) :
    ∃ outcome, answer = .ok outcome ∧ ∃ stages : MinorStages Source,
      stages.Run heap roots after ∧ stages.Reports outcome ∧
        stages.Measures heap marker roots next outcome := by
  unfold minorCycle at ran
  simp only [Bool.not_eq_true'] at ran
  split at ran
  · simp only [Checked.bind_eq_ok_iff] at ran
    obtain ⟨_, thrown, _⟩ := ran
    exact absurd thrown Checked.throw_ne_ok
  · rename_i unoccupied
    simp only [Checked.bind_eq_ok_iff] at ran
    obtain ⟨⟨found, cards⟩, scanned, cardRoots, counted, ⟨answered, marked⟩, traced, ran⟩ := ran
    obtain ⟨_, rfl⟩ := Word.counted_eq_ok_iff.mp counted
    obtain ⟨reached, rfl, members⟩ := Marker.traceInSteps_eq_ok traced
    simp only [Checked.bind_eq_ok_iff, List.partition_eq_filter_filter,
      Checked.pure_eq_ok_iff, Prod.mk.injEq] at ran
    obtain ⟨⟨tally, directory⟩, sweep, evacuation, evacuated, vacated, vacate, remembered,
      remember, rfl, rfl, rfl⟩ := ran
    refine ⟨_, rfl, { found, cards, reached, tally, directory, evacuation, vacated }, ?_,
      ⟨rfl, rfl, rfl, rfl, rfl, rfl, rfl⟩, ⟨traced, rfl, rfl, rfl, rfl, rfl⟩⟩
    exact
      { unoccupied := by simpa using unoccupied
        scanned
        reached := members
        sweep
        evacuated
        vacate
        remembered := ⟨remembered, _, remember, rfl⟩ }

theorem minorCycle_reports [MemorySource Source] {heap after : Heap Source}
    {marker next : Marker} {roots : List Handle} {answer : Answer MinorOutcome}
    (ran : heap.minorCycle marker roots = .ok (answer, after, next)) :
    ∃ outcome, answer = .ok outcome ∧ ∃ stages : MinorStages Source,
      stages.Run heap roots after ∧ stages.Reports outcome := by
  obtain ⟨outcome, answered, stages, run, reports, _⟩ := minorCycle_measures ran
  exact ⟨outcome, answered, stages, run, reports⟩

/-- A minor cycle that ends has an outcome. -/
theorem minorCycle_eq_ok [MemorySource Source] {heap after : Heap Source}
    {marker next : Marker} {roots : List Handle} {answer : Answer MinorOutcome}
    (ran : heap.minorCycle marker roots = .ok (answer, after, next)) :
    (∃ outcome, answer = .ok outcome) ∧
      ∃ stages : MinorStages Source, stages.Run heap roots after := by
  obtain ⟨outcome, answered, stages, run, _⟩ := minorCycle_reports ran
  exact ⟨⟨outcome, answered⟩, stages, run⟩

namespace MinorMarking.Run

variable {marking : MinorMarking} {heap : Heap Source} {roots : List Handle}

/-! ## The sweep -/

/-- Nothing is left over in the space that receives the survivors. -/
theorem space_ne_target (run : marking.Run heap roots) (consistent : heap.Consistent)
    {handle : Handle} {record : Record} (found : heap.directory.get? handle = some record) :
    record.space ≠ .survivor heap.holding.other := by
  intro here
  have member := (consistent.fills _).complete handle record found here
  have empty := run.unoccupied
  rw [Array.isEmpty_iff] at empty
  simp [Heap.arena, Arena.handles, empty] at member

theorem mem_youngHandles (run : marking.Run heap roots) (consistent : heap.Consistent)
    {handle : Handle} :
    handle ∈ heap.youngHandles ↔ heap.directory.isYoung handle = true := by
  rw [youngHandles, List.mem_append, consistent.isYoung_iff]
  constructor
  · intro resides
    rcases resides with member | member
    · obtain ⟨record, found, here⟩ :=
        (consistent.fills (.survivor heap.holding)).mem_handles_iff.mp member
      exact ⟨record, found, by simp [here]⟩
    · obtain ⟨record, found, here⟩ := (consistent.fills .eden).mem_handles_iff.mp member
      exact ⟨record, found, by simp [here]⟩
  · intro young
    obtain ⟨record, found, young⟩ := young
    have member := (consistent.fills record.space).complete handle record found rfl
    cases space : record.space with
    | eden => exact .inr (by rwa [space] at member)
    | old => exact absurd space young
    | survivor side =>
        rw [space] at member
        rcases side.eq_or_eq_other heap.holding with same | other
        · exact .inl (same ▸ member)
        · exact absurd (other ▸ space) (run.space_ne_target consistent found)

theorem young_of_reached (run : marking.Run heap roots) {handle : Handle}
    (reached : marking.reached.contains handle = true) : heap.directory.isYoung handle = true :=
  ((run.reached handle).mp reached).admitted

theorem mem_survivors (run : marking.Run heap roots) (consistent : heap.Consistent)
    {handle : Handle} :
    handle ∈ marking.survivors heap ↔ marking.reached.contains handle = true := by
  rw [survivors, List.mem_filter, run.mem_youngHandles consistent]
  exact ⟨fun both => both.2, fun reached => ⟨run.young_of_reached reached, reached⟩⟩

theorem generation_ne_old (run : marking.Run heap roots) (consistent : heap.Consistent)
    {handle : Handle} {record : Record} (member : handle ∈ marking.survivors heap)
    (found : heap.directory.get? handle = some record) : record.generation ≠ .old :=
  Directory.generation_ne_old (run.young_of_reached ((run.mem_survivors consistent).mp member))
    found

theorem mem_dead (run : marking.Run heap roots) (consistent : heap.Consistent)
    {handle : Handle} : handle ∈ marking.dead heap ↔
      heap.directory.isYoung handle = true ∧ marking.reached.contains handle = false := by
  rw [dead, List.mem_filter, run.mem_youngHandles consistent, Bool.not_eq_true']

/-- The sweep leaves the old objects and those that were reached. -/
theorem get?_swept (run : marking.Run heap roots) (consistent : heap.Consistent)
    {handle : Handle} {record : Record} :
    marking.directory.get? handle = some record ↔
      heap.directory.get? handle = some record ∧
        (record.generation = .old ∨ marking.reached.contains handle = true) := by
  rw [Directory.get?_sweep run.sweep]
  constructor
  · intro found
    split at found
    · simp at found
    · rename_i spared
      refine ⟨found, ?_⟩
      by_cases old : record.generation = .old
      · exact .inl old
      · right
        by_contra unreached
        exact spared ((run.mem_dead consistent).mpr
          ⟨Directory.isYoung_iff.mpr ⟨record, found, old⟩, Bool.eq_false_iff.mpr unreached⟩)
  · intro kept
    obtain ⟨found, reason⟩ := kept
    rw [if_neg, found]
    intro swept
    obtain ⟨young, unreached⟩ := (run.mem_dead consistent).mp swept
    rcases reason with old | reached
    · exact Directory.generation_ne_old young found old
    · simp [reached] at unreached

theorem movable (run : marking.Run heap roots) (consistent : heap.Consistent) :
    (marking.swept heap).Movable heap.holding.other (marking.survivors heap) where
  directory := (consistent.directory.sweep run.sweep).1
  fills := by
    intro space receives
    rw [marking.arena_swept heap space]
    refine (consistent.fills space).of_records fun handle record here => ?_
    rw [show (marking.swept heap).directory = marking.directory from rfl,
      run.get?_swept consistent]
    refine ⟨fun found => found.1, fun found => ⟨found, ?_⟩⟩
    rcases receives with old | target
    · exact .inl ((consistent.old_iff found).mpr (here.trans old))
    · exact absurd (here.trans target) (run.space_ne_target consistent found)
  cards := (CardTable.scanAll_dirty run.scanned).1.spans consistent.cards
  distinct := consistent.nodup_youngHandles.filter _
  outside := by
    intro handle member record found receives
    obtain ⟨found, _⟩ := (run.get?_swept consistent).mp found
    rcases receives with old | target
    · exact run.generation_ne_old consistent member found ((consistent.old_iff found).mpr old)
    · exact run.space_ne_target consistent found target
  whole := by
    intro handle record found
    obtain ⟨found, _⟩ := (run.get?_swept consistent).mp found
    exact consistent.wholeGranules found

end MinorMarking.Run

namespace MinorStages.Run

variable [MemorySource Source] {stages : MinorStages Source} {heap after : Heap Source}
  {roots : List Handle}

/-! ## The evacuation -/

theorem evacuating (run : stages.Run heap roots after) (consistent : heap.Consistent) :
    (stages.swept heap).Evacuating heap.holding.other (stages.survivors heap)
      stages.evacuation :=
  evacuateAll_eq_ok (run.movable consistent) run.evacuated

theorem exists_fate (run : stages.Run heap roots after) (consistent : heap.Consistent)
    {handle : Handle} (reached : stages.reached.contains handle = true) :
    ∃ fate, (handle, fate) ∈ stages.evacuation.fates.toList := by
  have member := (run.mem_survivors consistent).mpr reached
  rw [← (run.evacuating consistent).handled, List.mem_map] at member
  obtain ⟨⟨_, fate⟩, listed, rfl⟩ := member
  exact ⟨fate, listed⟩

theorem reached_of_fate (run : stages.Run heap roots after) (consistent : heap.Consistent)
    {handle : Handle} {fate : Fate} (listed : (handle, fate) ∈ stages.evacuation.fates.toList) :
    stages.reached.contains handle = true := by
  rw [← run.mem_survivors consistent, ← (run.evacuating consistent).handled]
  exact List.mem_map_of_mem listed

theorem get?_evacuated_old (run : stages.Run heap roots after) (consistent : heap.Consistent)
    {handle : Handle} {record : Record} (found : heap.directory.get? handle = some record)
    (old : record.generation = .old) :
    stages.evacuation.heap.directory.get? handle = some record := by
  rw [(run.evacuating consistent).waiting handle]
  · exact (run.get?_swept consistent).mpr ⟨found, .inl old⟩
  · exact fun member => run.generation_ne_old consistent member found old

theorem get?_evacuated_young (run : stages.Run heap roots after)
    (consistent : heap.Consistent) {handle : Handle} {record : Record} {fate : Fate}
    (found : heap.directory.get? handle = some record)
    (listed : (handle, fate) ∈ stages.evacuation.fates.toList) :
    ∃ address, stages.evacuation.heap.directory.get? handle =
      some (record.evacuated (fate.destination heap.holding.other) address) :=
  (run.evacuating consistent).fated handle fate listed record
    ((run.get?_swept consistent).mpr ⟨found, .inr (run.reached_of_fate consistent listed)⟩)

theorem origin (run : stages.Run heap roots after) (consistent : heap.Consistent)
    {handle : Handle} {record : Record}
    (found : stages.evacuation.heap.directory.get? handle = some record) :
    ∃ before, heap.directory.get? handle = some before ∧
      ((before.generation = .old ∧ record = before) ∨
        (before.generation ≠ .old ∧ ∃ fate address,
          (handle, fate) ∈ stages.evacuation.fates.toList ∧
            record = before.evacuated (fate.destination heap.holding.other) address)) := by
  by_cases reached : stages.reached.contains handle = true
  · obtain ⟨fate, listed⟩ := run.exists_fate consistent reached
    obtain ⟨before, beforeFound, young⟩ :=
      Directory.isYoung_iff.mp (run.young_of_reached reached)
    obtain ⟨address, same⟩ := run.get?_evacuated_young consistent beforeFound listed
    rw [found, Option.some.injEq] at same
    exact ⟨before, beforeFound, .inr ⟨young, fate, address, listed, same⟩⟩
  · rw [(run.evacuating consistent).waiting handle
      fun member => reached ((run.mem_survivors consistent).mp member)] at found
    obtain ⟨found, reason⟩ := (run.get?_swept consistent).mp found
    exact ⟨record, found, .inl ⟨reason.resolve_right reached, rfl⟩⟩

/-! ## The slides -/

theorem arena_left (run : stages.Run heap roots after) (consistent : heap.Consistent)
    {space : Space} (left : ¬ Receives heap.holding.other space) :
    stages.evacuation.heap.arena space = heap.arena space := by
  rw [(run.evacuating consistent).arenas space left, stages.arena_swept heap space]

/-- What is retained of the spaces that survivors left is recorded there. -/
theorem settles (run : stages.Run heap roots after) (consistent : heap.Consistent)
    {space : Space} (left : ¬ Receives heap.holding.other space) :
    stages.evacuation.heap.Settles stages.evacuation.retained.contains space := by
  have fills := consistent.fills space
  rw [Settles, run.arena_left consistent left]
  refine ⟨fills.wellFormed, fills.distinct, fun resident member retained => ?_,
    fun handle record found here => ?_⟩
  · obtain ⟨record, found, place⟩ := fills.located resident member
    obtain ⟨_, same⟩ := run.get?_evacuated_young consistent found (Evacuation.contains_retained.mp retained)
    exact ⟨record, same, place⟩
  · obtain ⟨before, beforeFound, ⟨old, rfl⟩ | ⟨_, fate, address, listed, rfl⟩⟩ :=
      run.origin consistent found
    · exact absurd (.inl (here.symm.trans ((consistent.old_iff beforeFound).mp old))) left
    · cases goes : fate.destination heap.holding.other with
      | some destination =>
          rw [goes] at here
          exact absurd (here ▸ receives_of_destination goes) left
      | none =>
          have retained : fate = .retained := by
            cases fate <;> simp [Fate.destination] at goes ⊢
          subst retained
          exact ⟨fills.complete handle before beforeFound here, Evacuation.contains_retained.mpr listed⟩

end MinorStages.Run

end Tenure.Heap
