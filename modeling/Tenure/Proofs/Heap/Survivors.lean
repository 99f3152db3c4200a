import Tenure.Proofs.Heap.Evacuation

/-!
# Moving all survivors

While survivors are moved one after another, the directory agrees with the spaces that
receive them; the other spaces still list what is about to leave them. Every survivor
has a fate, and its record says what the fate says.
-/

set_option autoImplicit false

namespace Tenure

variable {Source : Type}

namespace Evacuation

theorem contains_retained {evacuation : Evacuation Source} {handle : Handle} :
    evacuation.retained.contains handle = true ↔
      (handle, Fate.retained) ∈ evacuation.fates.toList := by
  rw [Evacuation.retained, HandleSet.contains_of]
  simp

theorem mem_promoted {evacuation : Evacuation Source} {handle : Handle} :
    handle ∈ evacuation.promoted ↔
      ∃ early, (handle, Fate.promoted early) ∈ evacuation.fates.toList := by
  rw [Evacuation.promoted, List.mem_map]
  constructor
  · intro promoted
    obtain ⟨⟨_, fate⟩, listed, rfl⟩ := promoted
    obtain ⟨listed, promoted⟩ := List.mem_filter.mp listed
    cases fate with
    | promoted early => exact ⟨early, listed⟩
    | copied => simp [Fate.isPromoted] at promoted
    | retained => simp [Fate.isPromoted] at promoted
  · intro promoted
    obtain ⟨early, listed⟩ := promoted
    exact ⟨(handle, .promoted early), List.mem_filter.mpr ⟨listed, rfl⟩, rfl⟩

end Evacuation

namespace Heap

def Receives (target : Side) (space : Space) : Prop :=
  space = .old ∨ space = .survivor target

theorem receives_of_destination {fate : Fate} {target : Side} {space : Space}
    (goes : fate.destination target = some space) : Receives target space := by
  cases fate with
  | copied => exact .inr (Option.some.inj goes).symm
  | promoted early => exact .inl (Option.some.inj goes).symm
  | retained => simp [Fate.destination] at goes

/-- Survivors can be moved: they lie outside the spaces that receive them. -/
structure Movable (heap : Heap Source) (target : Side) (survivors : List Handle) : Prop where
  directory : heap.directory.WellFormed
  fills : ∀ space, Receives target space → heap.directory.Fills space (heap.arena space)
  cards : heap.cards.Spans heap.old
  distinct : survivors.Nodup
  outside : ∀ handle ∈ survivors, ∀ record, heap.directory.get? handle = some record →
    ¬ Receives target record.space
  whole : ∀ handle record, heap.directory.get? handle = some record → WholeGranules record.size

/-- The survivors seen so far have been moved. -/
structure Evacuating (start : Heap Source) (target : Side) (seen : List Handle)
    (evacuation : Evacuation Source) : Prop where
  settings : evacuation.heap.settings = start.settings
  threshold : evacuation.heap.threshold = start.threshold
  holding : evacuation.heap.holding = start.holding
  arenas : ∀ space, ¬ Receives target space → evacuation.heap.arena space = start.arena space
  directory : evacuation.heap.directory.WellFormed
  occupancy : evacuation.heap.directory.occupancy = start.directory.occupancy
  fills : ∀ space, Receives target space →
    evacuation.heap.directory.Fills space (evacuation.heap.arena space)
  cards : evacuation.heap.cards.Spans evacuation.heap.old
  cardSize : evacuation.heap.cards.cardSize = start.cards.cardSize
  isDirty : ∀ index, evacuation.heap.cards.isDirty index = start.cards.isDirty index
  handled : evacuation.fates.toList.map Prod.fst = seen
  fated : ∀ handle fate, (handle, fate) ∈ evacuation.fates.toList →
    ∀ record, start.directory.get? handle = some record → ∃ address,
      evacuation.heap.directory.get? handle =
        some (record.evacuated (fate.destination target) address)
  waiting : ∀ handle, handle ∉ seen →
    evacuation.heap.directory.get? handle = start.directory.get? handle

theorem Movable.evacuating {start : Heap Source} {target : Side} {survivors : List Handle}
    (movable : start.Movable target survivors) :
    start.Evacuating target [] { heap := start, fates := #[], promotionFailed := false } where
  settings := rfl
  threshold := rfl
  holding := rfl
  arenas := fun _ _ => rfl
  directory := movable.directory
  occupancy := rfl
  fills := movable.fills
  cards := movable.cards
  cardSize := rfl
  isDirty := fun _ => rfl
  handled := rfl
  fated := by simp
  waiting := fun _ _ => rfl

/-- Each survivor comes once. -/
theorem Movable.unseen {start : Heap Source} {target : Side}
    {survivors seen rest : List Handle} {handle : Handle}
    (movable : start.Movable target survivors) (split : survivors = seen ++ handle :: rest) :
    handle ∉ seen := by
  intro early
  have distinct := movable.distinct
  rw [split, List.nodup_append] at distinct
  exact distinct.2.2 handle early handle List.mem_cons_self rfl

theorem Movable.of_append {start : Heap Source} {target : Side} {seen rest : List Handle}
    (movable : start.Movable target (seen ++ rest)) : start.Movable target seen where
  directory := movable.directory
  fills := movable.fills
  cards := movable.cards
  distinct := (List.nodup_append.mp movable.distinct).1
  outside := fun handle member => movable.outside handle (List.mem_append_left rest member)
  whole := movable.whole

variable [MemorySource Source]

theorem Evacuating.step {start after : Heap Source} {target : Side} {seen survivors : List Handle}
    {evacuation : Evacuation Source} (movable : start.Movable target survivors)
    (holds : start.Evacuating target seen evacuation) {handle : Handle} {fate : Fate}
    {failed asked : Bool} (member : handle ∈ survivors) (unseen : handle ∉ seen)
    (moved : evacuation.heap.Evacuates target handle fate failed after) :
    start.Evacuating target (seen ++ [handle])
      { heap := after
        fates := evacuation.fates.push (handle, fate)
        promotionFailed := asked } := by
  obtain ⟨enlarged, larger, rehoused⟩ := moved.split holds.cards
  have others : ∀ other, other ≠ handle →
      after.directory.get? other = evacuation.heap.directory.get? other := by
    intro other different
    rw [rehoused.get?_other different, larger.directory]
  have initial : enlarged.directory.get? handle = start.directory.get? handle := by
    rw [larger.directory, holds.waiting handle unseen]
  refine
    { settings := rehoused.settings.trans (larger.settings.trans holds.settings)
      threshold := rehoused.threshold.trans (larger.threshold.trans holds.threshold)
      holding := rehoused.holding.trans (larger.holding.trans holds.holding)
      arenas := fun space elsewhere => ?_
      directory := rehoused.wellFormed (larger.directory ▸ holds.directory)
      occupancy := by rw [rehoused.occupancy, larger.directory, holds.occupancy]
      fills := fun space receives => ?_
      cards := rehoused.spans larger.spans
      cardSize := by rw [rehoused.cards, larger.cardSize, holds.cardSize]
      isDirty := fun index => by rw [rehoused.cards, larger.isDirty, holds.isDirty]
      handled := by simp [holds.handled]
      fated := fun other otherFate listed record found => ?_
      waiting := fun other unseenAfter => ?_ }
  · have young : space ≠ .old := fun old => elsewhere (.inl old)
    rw [rehoused.arena fun goes => elsewhere (receives_of_destination goes),
      larger.arena_of_young young, holds.arenas space elsewhere]
  · refine rehoused.fills (larger.fills (holds.fills space receives)) fun record found => ?_
    rw [initial] at found
    exact ⟨movable.whole handle record found,
      fun here => movable.outside handle member record found (here ▸ receives)⟩
  · rw [Array.toList_push, List.mem_append, List.mem_singleton, Prod.mk.injEq] at listed
    rcases listed with listed | ⟨rfl, rfl⟩
    · have present : other ∈ seen := by
        rw [← holds.handled]
        exact List.mem_map_of_mem listed
      rw [others other fun same => unseen (same ▸ present)]
      exact holds.fated other otherFate listed record found
    · exact rehoused.get?_self (initial.trans found)
  · rw [List.mem_append, List.mem_singleton, not_or] at unseenAfter
    rw [others other unseenAfter.2]
    exact holds.waiting other unseenAfter.1

/-- What every move of a survivor keeps, given what is known of the moves before it, holds
after the last one. -/
theorem evacuateAll_induction {start : Heap Source} {target : Side} {survivors : List Handle}
    {evacuation : Evacuation Source} (invariant : List Handle → Evacuation Source → Prop)
    (movable : start.Movable target survivors)
    (ran : start.evacuateAll target survivors = .ok evacuation)
    (first : invariant [] { heap := start, fates := #[], promotionFailed := false })
    (next : ∀ seen handle rest current fate failed after, survivors = seen ++ handle :: rest →
      start.Evacuating target seen current → invariant seen current → handle ∉ seen →
      current.heap.evacuate target handle = .ok (fate, failed, after) →
      invariant (seen ++ [handle])
        { heap := after
          fates := current.fates.push (handle, fate)
          promotionFailed := current.promotionFailed || failed }) :
    start.Evacuating target survivors evacuation ∧ invariant survivors evacuation := by
  unfold evacuateAll at ran
  refine Checked.foldlM_induction (fun seen evacuation =>
    start.Evacuating target seen evacuation ∧ invariant seen evacuation)
    ran ⟨movable.evacuating, first⟩ ?_
  intro seen handle rest current final split both stepped
  obtain ⟨holds, kept⟩ := both
  simp only [Checked.bind_eq_ok_iff, Checked.pure_eq_ok_iff] at stepped
  obtain ⟨⟨fate, failed, after⟩, evacuated, rfl⟩ := stepped
  have unseen := movable.unseen split
  refine ⟨holds.step movable (by simp [split]) unseen (evacuate_eq_ok holds.cards evacuated), ?_⟩
  exact next seen handle rest current fate failed after split holds kept unseen evacuated

theorem evacuateAll_eq_ok {start : Heap Source} {target : Side} {survivors : List Handle}
    {evacuation : Evacuation Source} (movable : start.Movable target survivors)
    (ran : start.evacuateAll target survivors = .ok evacuation) :
    start.Evacuating target survivors evacuation :=
  (evacuateAll_induction (fun _ _ => True) movable ran trivial
    fun _ _ _ _ _ _ _ _ _ _ _ _ => trivial).1

end Heap

end Tenure
