import Tenure.Heap.MinorCycle
import Tenure.Proofs.Arena.Overlap
import Tenure.Proofs.Graph
import Tenure.Proofs.Heap.Sound

/-!
# Remembered references

In a sound heap the scan of the dirty cards finds exactly the old objects that reference
young ones. With their targets as further roots, a trace inside the young spaces reaches
what a trace of the whole heap would reach there. After a cycle the holders are
remembered again.
-/

set_option autoImplicit false

namespace Tenure.Heap

variable {Source : Type} {heap : Heap Source}

/-- The scan of the dirty cards finds the old objects that reference young ones. -/
theorem Sound.mem_found_iff (sound : heap.Sound) {found : List Handle} {cards : CardTable}
    (scanned : heap.cards.scanAll heap.cardView heap.cards.dirty = .ok (found, cards))
    {holder : Handle} :
    holder ∈ found ↔ heap.directory.generation? holder = some .old ∧
      heap.directory.referencesYoung holder = true := by
  have consistent := sound.consistent
  have fills : heap.directory.Fills .old heap.old := consistent.fills .old
  rw [(CardTable.scanAll_dirty scanned).2.2, Directory.generation?_eq_some_iff]
  constructor
  · intro seen
    obtain ⟨index, _, _, overlaps, references⟩ := seen
    obtain ⟨resident, member, rfl, _⟩ := fills.wellFormed.mem_overlapping.mp overlaps
    obtain ⟨record, recorded, old⟩ :=
      fills.mem_handles_iff.mp (Arena.mem_handles_of_mem member)
    exact ⟨⟨record, recorded, (consistent.old_iff recorded).mpr old⟩, references⟩
  · intro remembers
    obtain ⟨⟨record, recorded, old⟩, references⟩ := remembers
    obtain ⟨covered, dirty⟩ := sound.remembered holder record recorded old references
    obtain ⟨resident, member, named, _, address⟩ :=
      fills.exists_resident recorded ((consistent.old_iff recorded).mp old)
    have positive := (fills.wellFormed.whole resident member).1
    obtain ⟨above, below⟩ := consistent.cards.wellFormed.mem_card covered
    -- The card that holds the first byte of an object overlaps the object.
    refine ⟨_, dirty, consistent.cards.wellFormed.cardIndex_lt covered,
      fills.wellFormed.mem_overlapping.mpr ⟨resident, member, named, ?_, ?_⟩, references⟩
    · rwa [← address]
    · unfold Resident.finish
      omega

/-- The remembered targets are the young objects that old ones reference. -/
theorem Sound.mem_youngTargets_iff (sound : heap.Sound) {found : List Handle}
    {cards : CardTable}
    (scanned : heap.cards.scanAll heap.cardView heap.cards.dirty = .ok (found, cards))
    {target : Handle} :
    target ∈ heap.youngTargets (HandleSet.of found).toList ↔
      heap.directory.isYoung target = true ∧ ∃ holder,
        heap.directory.generation? holder = some .old ∧
          some target ∈ heap.directory.graph holder := by
  unfold youngTargets
  simp only [List.mem_flatMap, List.mem_filter, Graph.mem_targets, HandleSet.mem_toList_of,
    sound.mem_found_iff scanned]
  constructor
  · intro field
    obtain ⟨holder, ⟨old, _⟩, named, young⟩ := field
    exact ⟨young, holder, old, named⟩
  · intro field
    obtain ⟨young, holder, old, named⟩ := field
    exact ⟨holder, ⟨old, Directory.referencesYoung_iff.mpr ⟨target, named, young⟩⟩, named,
      young⟩

/-- An object that a minor cycle has to keep although it is young: a path leads to it
from a live root or from any old object. -/
def Needed (heap : Heap Source) (roots : List Handle) (handle : Handle) : Prop :=
  ∃ root, heap.directory.isLive root = true ∧
    (root ∈ roots ∨ heap.directory.generation? root = some .old) ∧
    heap.directory.graph.Leads root handle

/-- A trace inside the young spaces reaches the young objects that are needed. The last
old object on a path to one of them references a remembered target. -/
theorem Sound.reachable_young_iff (sound : heap.Sound) {found : List Handle}
    {cards : CardTable}
    (scanned : heap.cards.scanAll heap.cardView heap.cards.dirty = .ok (found, cards))
    {roots : List Handle} {handle : Handle} :
    Reachable heap.directory.graph heap.directory.isYoung
        (roots ++ heap.youngTargets (HandleSet.of found).toList) handle ↔
      heap.directory.isYoung handle = true ∧ heap.Needed roots handle := by
  constructor
  · intro reached
    refine ⟨reached.admitted, ?_⟩
    induction reached with
    | @root handle member young =>
        rcases List.mem_append.mp member with member | member
        · exact ⟨handle, Directory.isLive_of_isYoung young, .inl member, .refl _ handle⟩
        · obtain ⟨_, holder, old, named⟩ := (sound.mem_youngTargets_iff scanned).mp member
          obtain ⟨record, recorded, _⟩ := Directory.generation?_eq_some_iff.mp old
          exact ⟨holder, Directory.isLive_iff.mpr ⟨record, recorded⟩, .inr old,
            (Graph.Leads.refl _ holder).field named⟩
    | field _ named _ ih =>
        obtain ⟨root, live, origin, leads⟩ := ih
        exact ⟨root, live, origin, leads.field named⟩
  · intro needed
    obtain ⟨young, root, _, origin, leads⟩ := needed
    refine leads.induction (motive := fun target => heap.directory.isYoung target = true →
      Reachable heap.directory.graph heap.directory.isYoung
        (roots ++ heap.youngTargets (HandleSet.of found).toList) target)
      (fun young => ?_) (fun holder target _ reached named young => ?_) young
    · have rooted : root ∈ roots := by
        refine origin.resolve_right fun old => ?_
        obtain ⟨record, recorded, different⟩ := Directory.isYoung_iff.mp young
        exact different ((Directory.generation?_eq_some_iff_of_get? recorded).mp old)
      exact .root (List.mem_append_left _ rooted) young
    · obtain ⟨record, recorded, _⟩ := Directory.mem_graph_iff.mp named
      by_cases old : record.generation = .old
      · refine .root (List.mem_append_right _ ?_) young
        exact (sound.mem_youngTargets_iff scanned).mpr ⟨young, holder,
          Directory.generation?_eq_some_iff.mpr ⟨record, recorded, old⟩, named⟩
      · exact .field (reached (Directory.isYoung_iff.mpr ⟨record, recorded, old⟩)) named young

/-! ## Remembering again -/

def DirtiedBy (heap : Heap Source) (holder : Handle) (index : Nat) : Prop :=
  heap.directory.referencesYoung holder = true ∧
    ∃ record, heap.directory.get? holder = some record ∧
      heap.cards.Covers record.address ∧ heap.cards.cardIndex record.address = index

/-- Exactly the cards of the given objects that reference young ones get dirty. -/
theorem remember_eq_ok {after : Heap Source} {holders : List Handle}
    (ran : heap.remember holders = .ok after) :
    ∃ cards, after = { heap with cards } ∧ heap.cards.SameCards cards ∧
      ∀ index, cards.isDirty index = true ↔
        heap.cards.isDirty index = true ∨ ∃ holder ∈ holders, heap.DirtiedBy holder index := by
  unfold remember at ran
  simp only [Checked.bind_eq_ok_iff, Checked.pure_eq_ok_iff] at ran
  obtain ⟨cards, folded, rfl⟩ := ran
  refine ⟨cards, rfl, ?_⟩
  refine Checked.foldlM_induction (fun seen (cards : CardTable) =>
    heap.cards.SameCards cards ∧ ∀ index, cards.isDirty index = true ↔
      heap.cards.isDirty index = true ∨ ∃ holder ∈ seen, heap.DirtiedBy holder index)
    folded ⟨.refl _, by simp⟩ ?_
  intro seen holder rest current next _ holds stepped
  obtain ⟨same, marks⟩ := holds
  have step : heap.cards.SameCards next ∧ ∀ index, next.isDirty index = true ↔
      current.isDirty index = true ∨ heap.DirtiedBy holder index := by
    split at stepped
    · rename_i references
      cases found : heap.directory.get? holder with
      | none =>
          simp only [found, Checked.pure_eq_ok_iff] at stepped
          subst stepped
          exact ⟨same, fun index => by simp [DirtiedBy, found]⟩
      | some record =>
          simp only [found, Checked.bind_eq_ok_iff, Checked.pure_eq_ok_iff] at stepped
          obtain ⟨⟨marked, table⟩, ran, rfl⟩ := stepped
          refine ⟨same.trans (CardTable.sameCards_of_mark ran), fun index => ?_⟩
          rw [CardTable.isDirty_of_mark ran, same.covers_iff, same.cardIndex_eq]
          simp [DirtiedBy, found, references]
    · rename_i harmless
      rw [Checked.pure_eq_ok_iff] at stepped
      subst stepped
      exact ⟨same, fun index => by simp [DirtiedBy, harmless]⟩
  refine ⟨step.1, fun index => ?_⟩
  rw [step.2, marks]
  simp only [List.mem_append, List.mem_singleton, or_and_right, exists_or, exists_eq_left,
    or_assoc]

end Tenure.Heap
