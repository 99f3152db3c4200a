import Tenure.Proofs.Heap.Minor

/-!
# What a minor cycle leaves

After a minor cycle exactly the old objects and the needed young ones live. Old objects
are as they were; a survivor is where its fate says, with its size and its fields.
-/

set_option autoImplicit false

namespace Tenure.Heap

variable {Source : Type}

theorem distinct_left (heap : Heap Source) :
    [Space.eden, Space.survivor heap.holding].Nodup := by simp

theorem left_of_mem {heap : Heap Source} {space : Space}
    (member : space ∈ [Space.eden, Space.survivor heap.holding]) :
    ¬ Receives heap.holding.other space := by
  intro receives
  rcases receives with rfl | rfl
  · simp at member
  · simp [Side.other_ne] at member

namespace MinorStages

/-- The heap after the slides, before the holders are remembered. -/
def slid (stages : MinorStages Source) (heap : Heap Source) : Heap Source :=
  stages.evacuation.heap.slidThrough [.eden, .survivor heap.holding]
    stages.evacuation.retained.contains

end MinorStages

namespace MinorStages.Run

variable [MemorySource Source] {stages : MinorStages Source} {heap after : Heap Source}
  {roots : List Handle}

/-- Only marks, roles and counters change after the slides. -/
theorem ends (run : stages.Run heap roots after) (consistent : heap.Consistent) :
    after.directory = (stages.slid heap).directory ∧
      (∀ space, after.arena space = (stages.slid heap).arena space) ∧
      stages.evacuation.heap.cards.SameCards after.cards ∧
      ∀ index, after.cards.isDirty index = true ↔
        stages.evacuation.heap.cards.isDirty index = true ∨
          ∃ holder ∈ stages.holders ++ stages.evacuation.promoted,
            after.DirtiedBy holder index := by
  obtain ⟨_, survival, remembered, rfl⟩ := run.remembered
  obtain ⟨cards, rfl, same, marks⟩ := remember_eq_ok remembered
  have vacated := vacate_eq_ok run.vacate
  have holding : stages.evacuation.heap.holding = heap.holding :=
    (run.evacuating consistent).holding
  rw [holding] at vacated
  have directory : stages.vacated.directory = (stages.slid heap).directory := by
    rw [vacated]
    rfl
  have table : stages.vacated.cards = stages.evacuation.heap.cards := by
    rw [vacated]
    exact cards_slidThrough
  rw [table] at same marks
  refine ⟨directory, fun space => ?_, same, fun index => ?_⟩
  · have arena : stages.vacated.arena space = (stages.slid heap).arena space := by
      rw [vacated]
      exact arena_congr rfl rfl rfl rfl space
    rw [← arena]
    exact arena_congr rfl rfl rfl rfl space
  · rw [marks]
    simp only [DirtiedBy, table, same.covers_iff, same.cardIndex_eq]

theorem settles_left (run : stages.Run heap roots after) (consistent : heap.Consistent) :
    ∀ space ∈ [Space.eden, Space.survivor heap.holding],
      stages.evacuation.heap.Settles stages.evacuation.retained.contains space :=
  fun _ member => run.settles consistent (left_of_mem member)

theorem settled (run : stages.Run heap roots after) (consistent : heap.Consistent)
    (space : Space) : (stages.slid heap).Settled space := by
  obtain ⟨slid, others⟩ := settled_slidThrough (distinct_left heap) (run.settles_left consistent)
  by_cases left : space ∈ [Space.eden, Space.survivor heap.holding]
  · exact slid space left
  · refine others space ((run.evacuating consistent).fills space ?_) left
    simp only [List.mem_cons, List.not_mem_nil, or_false, not_or] at left
    cases space with
    | eden => exact absurd rfl left.1
    | survivor side =>
        rcases side.eq_or_eq_other heap.holding with rfl | other
        · exact absurd rfl left.2
        · exact .inr (congrArg Space.survivor other)
    | old => exact .inl rfl

theorem arena_after_left (run : stages.Run heap roots after) (consistent : heap.Consistent)
    {space : Space} (left : space ∈ [Space.eden, Space.survivor heap.holding]) :
    after.arena space = (heap.arena space).slid stages.evacuation.retained.contains := by
  rw [(run.ends consistent).2.1, MinorStages.slid, arena_slidThrough (distinct_left heap),
    if_pos left, run.arena_left consistent (left_of_mem left)]

theorem old_after (run : stages.Run heap roots after) (consistent : heap.Consistent) :
    after.old = stages.evacuation.heap.old := by
  have slid := (run.ends consistent).2.1 .old
  rw [MinorStages.slid, arena_slidThrough (distinct_left heap), if_neg (by simp)] at slid
  exact slid

/-- The survivor spaces change their roles if nothing is left where the survivors came
from. -/
theorem holding_after (run : stages.Run heap roots after) (consistent : heap.Consistent) :
    after.holding = if (after.survivor heap.holding).residents.isEmpty then
      heap.holding.other else heap.holding := by
  have left : Space.survivor heap.holding ∈ [Space.eden, Space.survivor heap.holding] := by simp
  have arena := run.arena_after_left consistent left
  have same := run.arena_left consistent (left_of_mem left)
  have holding : stages.evacuation.heap.holding = heap.holding :=
    (run.evacuating consistent).holding
  have roles : after.holding = stages.vacated.holding := by
    obtain ⟨_, survival, remembered, rfl⟩ := run.remembered
    obtain ⟨cards, rfl, _⟩ := remember_eq_ok remembered
    rfl
  simp only [Heap.arena] at arena same
  rw [roles, vacate_eq_ok run.vacate, arena]
  simp only [holding, same]

theorem get?_after (run : stages.Run heap roots after) (consistent : heap.Consistent)
    {handle : Handle} {record : Record}
    (found : stages.evacuation.heap.directory.get? handle = some record) :
    ∃ address, after.directory.get? handle = some { record with address } ∧
      (record.space = .old → address = record.address) := by
  obtain ⟨address, slid, _, still⟩ :=
    get?_slidThrough (distinct_left heap) (run.settles_left consistent) found
  rw [(run.ends consistent).1]
  refine ⟨address, slid, fun old => still ?_⟩
  simp [old]

theorem isLive_after (run : stages.Run heap roots after) (consistent : heap.Consistent)
    (handle : Handle) :
    after.directory.isLive handle = stages.evacuation.heap.directory.isLive handle := by
  rw [(run.ends consistent).1]
  exact isLive_slidThrough handle

theorem origin_after (run : stages.Run heap roots after) (consistent : heap.Consistent)
    {handle : Handle} {record : Record} (found : after.directory.get? handle = some record) :
    ∃ before, heap.directory.get? handle = some before ∧
      ((before.generation = .old ∧ record = before) ∨
        (before.generation ≠ .old ∧ ∃ fate place address,
          (handle, fate) ∈ stages.evacuation.fates.toList ∧
            record = { before.evacuated (fate.destination heap.holding.other) place with
              address })) := by
  have live : stages.evacuation.heap.directory.isLive handle = true := by
    rw [← run.isLive_after consistent]
    exact Directory.isLive_iff.mpr ⟨record, found⟩
  obtain ⟨moved, movedFound⟩ := Directory.isLive_iff.mp live
  obtain ⟨address, slid, still⟩ := run.get?_after consistent movedFound
  rw [found, Option.some.injEq] at slid
  obtain ⟨before, beforeFound, ⟨old, rfl⟩ | ⟨young, fate, place, listed, rfl⟩⟩ :=
    run.origin consistent movedFound
  · refine ⟨moved, beforeFound, .inl ⟨old, ?_⟩⟩
    rw [slid, still ((consistent.old_iff beforeFound).mp old)]
  · exact ⟨before, beforeFound, .inr ⟨young, fate, place, address, listed, slid⟩⟩

theorem get?_after_old (run : stages.Run heap roots after) (consistent : heap.Consistent)
    {handle : Handle} {record : Record} (found : heap.directory.get? handle = some record)
    (old : record.generation = .old) : after.directory.get? handle = some record := by
  obtain ⟨address, slid, still⟩ :=
    run.get?_after consistent (run.get?_evacuated_old consistent found old)
  rw [slid, still ((consistent.old_iff found).mp old)]

theorem get?_after_young (run : stages.Run heap roots after) (consistent : heap.Consistent)
    {handle : Handle} {record : Record} (found : heap.directory.get? handle = some record)
    (reached : stages.reached.contains handle = true) :
    ∃ fate place address, (handle, fate) ∈ stages.evacuation.fates.toList ∧
      after.directory.get? handle =
        some { record.evacuated (fate.destination heap.holding.other) place with address } := by
  obtain ⟨fate, listed⟩ := run.exists_fate consistent reached
  obtain ⟨place, evacuated⟩ := run.get?_evacuated_young consistent found listed
  obtain ⟨address, slid, _⟩ := run.get?_after consistent evacuated
  exact ⟨fate, place, address, listed, slid⟩

theorem isLive_after_iff (run : stages.Run heap roots after) (consistent : heap.Consistent)
    {handle : Handle} : after.directory.isLive handle = true ↔
      heap.directory.isLive handle = true ∧
        (heap.directory.generation? handle = some .old ∨
          stages.reached.contains handle = true) := by
  rw [Directory.isLive_iff, Directory.isLive_iff, Directory.generation?_eq_some_iff]
  constructor
  · intro live
    obtain ⟨record, found⟩ := live
    obtain ⟨before, beforeFound, ⟨old, rfl⟩ | ⟨_, fate, _, _, listed, _⟩⟩ :=
      run.origin_after consistent found
    · exact ⟨⟨_, beforeFound⟩, .inl ⟨_, beforeFound, old⟩⟩
    · exact ⟨⟨before, beforeFound⟩, .inr (run.reached_of_fate consistent listed)⟩
  · intro kept
    rcases kept with ⟨⟨before, beforeFound⟩, ⟨record, found, old⟩ | reached⟩
    · exact ⟨record, run.get?_after_old consistent found old⟩
    · obtain ⟨_, _, _, _, found⟩ := run.get?_after_young consistent beforeFound reached
      exact ⟨_, found⟩

/-! ## Soundness -/

theorem consistent_after (run : stages.Run heap roots after) (consistent : heap.Consistent) :
    after.Consistent := by
  have evacuating := run.evacuating consistent
  obtain ⟨directory, arenas, same, _⟩ := run.ends consistent
  refine ⟨?_, fun space => ?_, fun handle record found => ?_, ?_⟩
  · rw [directory]
    exact directory_slidThrough evacuating.directory
  · rw [directory, arenas]
    exact run.settled consistent space
  · obtain ⟨before, beforeFound, ⟨_, rfl⟩ | ⟨_, fate, place, address, _, rfl⟩⟩ :=
      run.origin_after consistent found
    · exact consistent.generation handle record beforeFound
    · cases goes : fate.destination heap.holding.other with
      | none => exact consistent.generation handle before beforeFound
      | some space => rfl
  · rw [run.old_after consistent]
    exact same.spans evacuating.cards

theorem turns (run : stages.Run heap roots after) (consistent : heap.Consistent) :
    heap.directory.Turns after.directory := by
  refine (Directory.turns_sweep run.sweep).trans (.of_occupancy ?_)
  rw [(run.ends consistent).1, MinorStages.slid, occupancy_slidThrough]
  exact (run.evacuating consistent).occupancy

/-- An object that lives after the cycle has the fields that it had before. -/
theorem graph_after (run : stages.Run heap roots after) (consistent : heap.Consistent)
    {holder target : Handle} (named : some target ∈ after.directory.graph holder) :
    some target ∈ heap.directory.graph holder := by
  obtain ⟨record, found, field⟩ := Directory.mem_graph_iff.mp named
  obtain ⟨before, beforeFound, ⟨_, rfl⟩ | ⟨_, fate, place, address, _, rfl⟩⟩ :=
    run.origin_after consistent found
  · exact Directory.mem_graph_iff.mpr ⟨record, beforeFound, field⟩
  · have contents := before.evacuated_contents (fate.destination heap.holding.other) place
    refine Directory.mem_graph_iff.mpr ⟨before, beforeFound, ?_⟩
    rw [show before.fields = _ from (congrArg Prod.snd contents).symm]
    exact field

theorem young_before (run : stages.Run heap roots after) (consistent : heap.Consistent)
    {handle : Handle} (young : after.directory.isYoung handle = true) :
    heap.directory.isYoung handle = true := by
  obtain ⟨record, found, different⟩ := Directory.isYoung_iff.mp young
  obtain ⟨before, beforeFound, ⟨_, rfl⟩ | ⟨youngBefore, _⟩⟩ := run.origin_after consistent found
  · exact Directory.isYoung_iff.mpr ⟨_, beforeFound, different⟩
  · exact Directory.isYoung_iff.mpr ⟨before, beforeFound, youngBefore⟩

theorem old_before (run : stages.Run heap roots after) (consistent : heap.Consistent)
    {handle : Handle} {record : Record} (found : after.directory.get? handle = some record)
    (old : record.generation = .old) :
    heap.directory.generation? handle = some .old ∨ handle ∈ stages.evacuation.promoted := by
  obtain ⟨before, beforeFound, ⟨_, rfl⟩ | ⟨young, fate, place, address, listed, rfl⟩⟩ :=
    run.origin_after consistent found
  · exact .inl (Directory.generation?_eq_some_iff.mpr ⟨record, beforeFound, old⟩)
  · cases fate with
    | copied => simp [Record.evacuated, Fate.destination, Space.generation] at old
    | retained => exact absurd old young
    | promoted early => exact .inr (Evacuation.mem_promoted.mpr ⟨early, listed⟩)

/-- An old object that references a young one after the cycle is looked at again. -/
theorem mem_rescanned (run : stages.Run heap roots after) (sound : heap.Sound)
    {holder : Handle} {record : Record} (found : after.directory.get? holder = some record)
    (old : record.generation = .old)
    (references : after.directory.referencesYoung holder = true) :
    holder ∈ stages.holders ++ stages.evacuation.promoted := by
  have consistent := sound.consistent
  rcases run.old_before consistent found old with oldBefore | promoted
  · obtain ⟨target, named, young⟩ := Directory.referencesYoung_iff.mp references
    refine List.mem_append_left _ (HandleSet.mem_toList_of.mpr
      ((sound.mem_found_iff run.scanned).mpr ⟨oldBefore, ?_⟩))
    exact Directory.referencesYoung_iff.mpr
      ⟨target, run.graph_after consistent named, run.young_before consistent young⟩
  · exact List.mem_append_right _ promoted

/-- Only old objects are looked at again. -/
theorem old_of_mem_rescanned (run : stages.Run heap roots after) (sound : heap.Sound)
    {holder : Handle} (listed : holder ∈ stages.holders ++ stages.evacuation.promoted) :
    after.directory.generation? holder = some .old := by
  have consistent := sound.consistent
  rcases List.mem_append.mp listed with found | promoted
  · obtain ⟨old, _⟩ :=
      (sound.mem_found_iff run.scanned).mp (HandleSet.mem_toList_of.mp found)
    obtain ⟨record, recorded, old⟩ := Directory.generation?_eq_some_iff.mp old
    exact Directory.generation?_eq_some_iff.mpr
      ⟨record, run.get?_after_old consistent recorded old, old⟩
  · obtain ⟨early, fated⟩ := Evacuation.mem_promoted.mp promoted
    obtain ⟨before, beforeFound, _⟩ :=
      Directory.isYoung_iff.mp (run.young_of_reached (run.reached_of_fate consistent fated))
    obtain ⟨place, evacuated⟩ := run.get?_evacuated_young consistent beforeFound fated
    obtain ⟨address, recorded, _⟩ := run.get?_after consistent evacuated
    exact Directory.generation?_eq_some_iff.mpr ⟨_, recorded, rfl⟩

theorem sound_after (run : stages.Run heap roots after) (sound : heap.Sound) :
    after.Sound := by
  have consistent := sound.consistent
  have consistentAfter := run.consistent_after consistent
  refine ⟨consistentAfter, fun holder target named => ?_,
    fun holder record found old references => ?_⟩
  · -- A young target of an object that stays is reached: from the object, if it is young,
    -- and as a remembered target otherwise.
    have namedBefore := run.graph_after consistent named
    have liveBefore := sound.closed holder target namedBefore
    refine (run.isLive_after_iff consistent).mpr ⟨liveBefore, ?_⟩
    obtain ⟨targetRecord, targetFound⟩ := Directory.isLive_iff.mp liveBefore
    by_cases targetOld : targetRecord.generation = .old
    · exact .inl (Directory.generation?_eq_some_iff.mpr ⟨targetRecord, targetFound, targetOld⟩)
    · have young := Directory.isYoung_iff.mpr ⟨targetRecord, targetFound, targetOld⟩
      refine .inr ((run.reached target).mpr ?_)
      obtain ⟨record, found, _⟩ := Directory.mem_graph_iff.mp named
      obtain ⟨_, old | reached⟩ :=
        (run.isLive_after_iff consistent).mp (Directory.isLive_iff.mpr ⟨record, found⟩)
      · exact .root (List.mem_append_right _ ((sound.mem_youngTargets_iff run.scanned).mpr
          ⟨young, holder, old, namedBefore⟩)) young
      · exact .field ((run.reached holder).mp reached) namedBefore young
  · obtain ⟨_, _, _, marks⟩ := run.ends consistent
    have covered := consistentAfter.covers found ((consistentAfter.old_iff found).mp old)
    exact ⟨covered, (marks _).mpr (.inr ⟨holder, run.mem_rescanned sound found old references,
      references, record, found, covered, rfl⟩)⟩

end MinorStages.Run

theorem Sound.minorCycle [MemorySource Source] {heap after : Heap Source} (sound : heap.Sound)
    {marker next : Marker} {roots : List Handle} {answer : Answer MinorOutcome}
    (ran : heap.minorCycle marker roots = .ok (answer, after, next)) : after.Sound := by
  obtain ⟨_, stages, run⟩ := minorCycle_eq_ok ran
  exact run.sound_after sound

end Tenure.Heap
