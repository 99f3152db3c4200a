import Tenure.Proofs.Heap.Addressable
import Tenure.Proofs.Heap.Rotation
import Tenure.Proofs.Marking.Outcome

/-!
# Cycles answer

Inside the address space no stage of a cycle stops at a trap: sums stay words, every old
object lies on a card, the target of a minor cycle is empty, and only young objects are
moved. The trace ends because it has a budget. So both cycles answer, and what they leave
is inside the address space again.
-/

set_option autoImplicit false

namespace Tenure

theorem Generation.le_old (generation : Generation) : generation ≤ .old := by
  cases generation <;> decide

theorem Generation.le_survivor {generation : Generation} (young : generation ≠ .old) :
    generation ≤ .survivor := by
  cases generation with
  | eden => decide
  | survivor => decide
  | old => exact absurd rfl young

/-- A young object that the windows leave room to move. -/
structure Record.Portable (record : Record) : Prop where
  young : record.generation ≠ .old
  whole : WholeGranules record.size
  size_le : record.size ≤ WindowedMemory.window

theorem Record.Portable.small {record : Record} (portable : record.Portable) :
    record.size + granule < Word.limit := by
  have bounded := portable.size_le
  simp only [granule, Word.limit, WindowedMemory.window] at bounded ⊢
  omega

namespace Heap

open WindowedMemory (window)
open Checked (Answers answers_pure answers_bind_of_eq_ok bind_of_eq_ok)

variable {heap after : Heap WindowedMemory} {target : Side} {handle : Handle} {record : Record}

/-! ## One survivor -/

theorem answers_relocate {generation : Generation} {space : Space}
    (upward : generation ≤ space.generation) (place : Placement) (age : Nat) :
    Answers (heap.relocate handle generation space place age) := ⟨_, if_pos upward⟩

theorem answers_copy (portable : record.Portable) (addressable : heap.Addressable)
    (fills : heap.directory.Fills (.survivor target) (heap.survivor target)) (age : Nat) :
    Answers (heap.copy handle record target age) := by
  refine (fills.wellFormed.answers_placement? (addressable.arena (.survivor target))
    portable.small).bind fun place _ => ?_
  cases place with
  | none => exact answers_pure _
  | some place =>
      exact (answers_relocate (Generation.le_survivor portable.young) place age).bind
        fun _ _ => answers_pure _

theorem answers_evacuate (addressable : heap.Addressable) (spans : heap.cards.Spans heap.old)
    (fills : ∀ space, Receives target space → heap.directory.Fills space (heap.arena space))
    (portable : ∀ record, heap.directory.get? handle = some record → record.Portable) :
    Answers (heap.evacuate target handle) := by
  unfold evacuate
  cases found : heap.directory.get? handle with
  | none => exact answers_pure _
  | some record =>
      have portable := portable record found
      have inTarget : heap.directory.Fills (.survivor target) (heap.survivor target) :=
        fills (.survivor target) (.inr rfl)
      have room : (heap.survivor target).used + record.size < Word.limit := by
        have used := inTarget.wellFormed.used_le
        have capacity := addressable.capacity_le (.survivor target)
        have size := portable.size_le
        simp only [Heap.arena, window, Word.limit] at capacity size ⊢
        omega
      refine (Arena.answers_fitsWithin portable.whole portable.small room _).bind
        fun fits _ => ?_
      dsimp only
      split
      · refine (addressable.answers_placementInOld spans (fills .old (.inl rfl))
          portable.small).bind fun placed ran => ?_
        obtain ⟨place, enlarged⟩ := placed
        cases place with
        | some place =>
            exact (answers_relocate (Generation.le_old _) place _).bind
              fun _ _ => answers_pure _
        | none =>
            have larger := (placementInOld_eq_ok spans ran).1
            have still := addressable.of_grows spans (grows_of_placementInOld ran)
            exact (answers_copy portable still (larger.fills inTarget) _).bind
              fun _ _ => answers_pure _
      · exact (answers_copy portable addressable inTarget _).bind fun _ _ => answers_pure _

/-! ## All survivors -/

theorem answers_evacuateAll {survivors : List Handle} (addressable : heap.Addressable)
    (movable : heap.Movable target survivors)
    (portable : ∀ handle ∈ survivors, ∀ record, heap.directory.get? handle = some record →
      record.Portable) : Answers (heap.evacuateAll target survivors) := by
  have folded : ∃ evacuation, heap.evacuateAll target survivors = .ok evacuation ∧
      heap.Evacuating target survivors evacuation ∧ evacuation.heap.Addressable := by
    unfold Heap.evacuateAll
    refine Checked.foldlM_total (fun seen current =>
      heap.Evacuating target seen current ∧ current.heap.Addressable)
      ⟨movable.evacuating, addressable⟩ ?_
    intro seen handle rest current split both
    obtain ⟨holds, still⟩ := both
    have unseen := movable.unseen split
    have member : handle ∈ survivors := by simp [split]
    obtain ⟨⟨fate, failed, after⟩, ran⟩ := answers_evacuate still holds.cards holds.fills
      fun record found => portable handle member record
        ((holds.waiting handle unseen).symm.trans found)
    have step := evacuate_eq_ok holds.cards ran
    exact ⟨_, bind_of_eq_ok ran rfl, holds.step movable member unseen step,
      still.of_reshapes (step.reshapes holds.cards)⟩
  obtain ⟨evacuation, ran, _⟩ := folded
  exact ⟨evacuation, ran⟩

/-! ## Slides and cards -/

theorem answers_vacate (addressable : heap.Addressable) (retained : HandleSet)
    (eden : heap.eden.WellFormed) (source : (heap.survivor heap.holding).WellFormed) :
    Answers (heap.vacate retained) := by
  refine (eden.answers_slide (addressable.arena .eden) _).bind fun slidEden _ => ?_
  refine (source.answers_slide (addressable.arena (.survivor heap.holding)) _).bind
    fun slidSource _ => ?_
  dsimp only
  split
  · exact answers_pure _
  · exact answers_pure _

theorem answers_compact (addressable : heap.Addressable)
    (wellFormed : ∀ space, (heap.arena space).WellFormed) : Answers heap.compact := by
  have slides : ∀ space, Answers ((heap.arena space).slide heap.directory.isLive) :=
    fun space => (wellFormed space).answers_slide (addressable.arena space) _
  refine (slides .eden).bind fun _ _ => ?_
  refine (slides (.survivor .a)).bind fun _ _ => ?_
  refine (slides (.survivor .b)).bind fun _ _ => ?_
  exact (slides .old).bind fun _ _ => answers_pure _

theorem answers_remember (heap : Heap WindowedMemory) (addressable : heap.cards.Addressable)
    (wellFormed : heap.cards.WellFormed) (holders : List Handle) :
    Answers (heap.remember holders) := by
  refine Answers.bind ?_ fun _ _ => answers_pure _
  refine Checked.answers_foldlM (fun _ cards => heap.cards.SameCards cards) (.refl _) ?_ ?_
  · intro seen holder rest cards _ same
    split
    · split
      · exact ((same.addressable addressable).answers_mark (same.wellFormed wellFormed) _).bind
          fun _ _ => answers_pure _
      · exact answers_pure _
    · exact answers_pure _
  · intro seen holder rest cards next _ same stepped
    split at stepped
    · split at stepped
      · simp only [Checked.bind_eq_ok_iff, Checked.pure_eq_ok_iff] at stepped
        obtain ⟨⟨_, marked⟩, ran, rfl⟩ := stepped
        exact same.trans (CardTable.sameCards_of_mark ran)
      · rw [Checked.pure_eq_ok_iff] at stepped
        exact stepped ▸ same
    · rw [Checked.pure_eq_ok_iff] at stepped
      exact stepped ▸ same

theorem answers_relieve (addressable : heap.Addressable) (spans : heap.cards.Spans heap.old) :
    Answers heap.relieve := by
  unfold Heap.relieve
  split
  · have capacity := addressable.capacity_le .old
    have small : heap.old.capacity / 2 + granule < Word.limit := by
      simp only [Heap.arena, granule, window, Word.limit] at capacity ⊢
      omega
    refine (answers_alignSize small).bind fun _ _ => ?_
    exact (addressable.answers_growOld spans _).bind fun _ _ => answers_pure _
  · exact answers_pure _

/-! ## Minor cycles -/

theorem referencesFit (consistent : heap.Consistent)
    (few : heap.directory.fieldCount < Word.limit) (limit : ScanLimit) (roots : List Handle) :
    heap.directory.graph.ReferencesFit limit roots :=
  fun _ distinct _ => Nat.lt_of_le_of_lt (consistent.directory.references_le distinct) few

theorem length_youngTargets_le (consistent : heap.Consistent) {holders : List Handle}
    (distinct : holders.Nodup) :
    (heap.youngTargets holders).length ≤ heap.directory.fieldCount := by
  refine Nat.le_trans ?_ (consistent.directory.references_le distinct)
  unfold youngTargets Graph.references
  rw [List.length_flatMap]
  exact Handle.sum_le_of_subset (fun _ => List.length_filter_le ..) distinct (List.Subset.refl _)

theorem MinorMarking.Run.portable {marking : MinorMarking} {roots : List Handle}
    (run : marking.Run heap roots) (addressable : heap.Addressable)
    (consistent : heap.Consistent) (member : handle ∈ marking.survivors heap)
    (found : marking.directory.get? handle = some record) : record.Portable := by
  obtain ⟨found, _⟩ := (run.get?_swept consistent).mp found
  exact ⟨run.generation_ne_old consistent member found, consistent.wholeGranules found,
    Nat.le_trans (consistent.size_le found) (addressable.capacity_le _)⟩

theorem Addressable.answers_sweep (addressable : heap.Addressable) (consistent : heap.Consistent)
    {dead : List Handle} (distinct : dead.Nodup) (contained : dead ⊆ heap.residents) :
    Answers (heap.directory.sweep dead) := by
  have storage := addressable.storage_le consistent distinct contained
  refine consistent.directory.answers_sweep distinct ?_
  simp only [window, Word.limit] at storage ⊢
  omega

theorem Evacuating.answers_vacate {start : Heap WindowedMemory} {seen : List Handle}
    {evacuation : Evacuation WindowedMemory}
    (holds : start.Evacuating start.holding.other seen evacuation)
    (addressable : evacuation.heap.Addressable)
    (wellFormed : ∀ space, (start.arena space).WellFormed) (retained : HandleSet) :
    Answers (evacuation.heap.vacate retained) := by
  have left : ∀ space, ¬ Receives start.holding.other space →
      (evacuation.heap.arena space).WellFormed :=
    fun space elsewhere => holds.arenas space elsewhere ▸ wellFormed space
  refine Heap.answers_vacate addressable retained (left .eden (left_of_mem (by simp))) ?_
  rw [holds.holding]
  exact left (.survivor start.holding) (left_of_mem (by simp))

/-- Once the survivors are known, they are moved, the spaces that they left are slid, and
the holders are remembered. -/
theorem MinorMarking.Run.exists_stages {marking : MinorMarking} {roots : List Handle}
    (run : marking.Run heap roots) (consistent : heap.Consistent)
    (addressable : heap.Addressable) : ∃ evacuation vacated after, MinorStages.Run
      { toMinorMarking := marking, evacuation, vacated } heap roots after := by
  have movable := run.movable consistent
  have swept := addressable.of_same run.sameSpaces_swept
  obtain ⟨evacuation, evacuated⟩ := answers_evacuateAll swept movable
    fun handle member record found => run.portable addressable consistent member found
  have holds := evacuateAll_eq_ok movable evacuated
  have moved := swept.of_reshapes (reshapes_of_evacuateAll movable evacuated)
  obtain ⟨vacated, vacate⟩ := holds.answers_vacate moved
    (fun space => marking.arena_swept heap space ▸ (consistent.fills space).wellFormed)
    evacuation.retained
  have untouched : vacated.cards = evacuation.heap.cards := (sameSpaces_of_vacate vacate).2
  obtain ⟨remembered, remember⟩ := answers_remember vacated
    (untouched ▸ moved.cards holds.cards) (untouched ▸ holds.cards.wellFormed)
    (marking.holders ++ evacuation.promoted)
  exact ⟨evacuation, vacated, { remembered with survival := .zero },
    { toRun := run, evacuated, vacate, remembered := ⟨remembered, .zero, remember, rfl⟩ }⟩

theorem answers_minorCycle (consistent : heap.Consistent) (rotating : heap.Rotating)
    (addressable : heap.Addressable) (few : heap.directory.fieldCount < Word.limit)
    (marker : Marker) (roots : List Handle) : Answers (heap.minorCycle marker roots) := by
  have unoccupied : (heap.survivor heap.holding.other).residents.isEmpty = true := by
    rw [rotating.vacant]
    rfl
  have cards := addressable.cards consistent.cards
  unfold Heap.minorCycle
  simp only [unoccupied, Bool.not_true, Bool.false_eq_true, ↓reduceIte]
  refine (cards.answers_scanAll consistent.cards.wellFormed _ _).bind fun scan scanned => ?_
  obtain ⟨found, cleaned⟩ := scan
  have counted : ∀ test, (((heap.youngTargets (HandleSet.of found).toList).filter test).length) <
      Word.limit := by
    intro test
    have targets := length_youngTargets_le consistent (HandleSet.nodup_toList (HandleSet.of found))
    have kept := List.length_filter_le test (heap.youngTargets (HandleSet.of found).toList)
    omega
  refine Answers.bind ⟨_, Word.add_of_lt (by simpa using counted _)⟩ fun _ _ => ?_
  obtain ⟨reached, marked, traced, marks⟩ := marker.traceInSteps_total
    heap.settings.verifyAfterTrace
    (referencesFit consistent few heap.directory.isYoung
      (roots ++ heap.youngTargets (HandleSet.of found).toList)) addressable.stepBudget_pos
  refine answers_bind_of_eq_ok traced ?_
  simp only [List.partition_eq_filter_filter]
  -- The dead are residents, each named once, so the windows bound what they take together.
  refine Answers.bind (addressable.answers_sweep consistent
    (consistent.nodup_youngHandles.filter _)
    (List.Subset.trans List.filter_sublist.subset heap.youngHandles_subset)) fun swept sweep => ?_
  obtain ⟨tally, directory⟩ := swept
  have marking : MinorMarking.Run { found, cards := cleaned, reached, tally, directory } heap
      roots := ⟨unoccupied, scanned, marks.contains_iff, sweep⟩
  obtain ⟨evacuation, vacated, after, run⟩ := marking.exists_stages consistent addressable
  obtain ⟨remembered, _, remember, _⟩ := run.remembered
  refine answers_bind_of_eq_ok run.evacuated ?_
  refine answers_bind_of_eq_ok run.vacate ?_
  exact answers_bind_of_eq_ok remember (answers_pure _)

/-! ## Major cycles -/

theorem answers_majorCycle (consistent : heap.Consistent) (addressable : heap.Addressable)
    (few : heap.directory.fieldCount < Word.limit) (marker : Marker) (roots : List Handle) :
    Answers (heap.majorCycle marker roots) := by
  unfold Heap.majorCycle
  obtain ⟨reached, marked, traced, _⟩ := marker.traceInSteps_total
    heap.settings.verifyAfterTrace
    (referencesFit consistent few heap.directory.isLive roots) addressable.stepBudget_pos
  refine answers_bind_of_eq_ok traced ?_
  refine Answers.bind (addressable.answers_sweep consistent
    (consistent.nodup_residents.filter _) List.filter_sublist.subset) fun swept _ => ?_
  have sweptSpaces := heap.sameSpaces_withDirectory swept.2
  refine Answers.bind (answers_compact (addressable.of_same sweptSpaces) fun space =>
    arena_congr rfl rfl rfl rfl space ▸ (consistent.fills space).wellFormed) fun slides compacted => ?_
  obtain ⟨moves, slid⟩ := slides
  obtain ⟨slidSpaces, cards⟩ := sameSpaces_of_compact compacted
  have cleared : heap.cards.SameCards slid.cards.clear :=
    cards ▸ CardTable.sameCards_clear slid.cards
  refine (answers_remember { slid with cards := slid.cards.clear }
    (cleared.addressable (addressable.cards consistent.cards))
    (cleared.wellFormed consistent.cards.wellFormed) _).bind fun rebuilt remember => ?_
  obtain ⟨spaces, marked⟩ := sameSpaces_of_rebuilt (sweptSpaces.trans slidSpaces) cards remember
  exact (answers_relieve (addressable.of_same spaces)
    (spaces.spans marked consistent.cards)).bind fun _ _ => answers_pure _

end Heap

end Tenure
