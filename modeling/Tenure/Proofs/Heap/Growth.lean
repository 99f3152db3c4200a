import Tenure.Heap.Growth
import Tenure.Proofs.Heap.Sound

/-!
# Growth of the old space keeps heaps sound

Growth changes the capacity of the old space and the extent of the card table, both
to the same number. Every object stays where it is and every mark is kept.
-/

set_option autoImplicit false

namespace Tenure.Heap

variable {Source : Type}

/-- A heap differs from another one by growth of its old space. -/
structure Enlarges (heap after : Heap Source) : Prop where
  frame : ∃ memory capacity cards, heap.old.capacity ≤ capacity ∧
    after = { heap with memory, old := { heap.old with capacity }, cards }
  spans : after.cards.Spans after.old
  cardSize : after.cards.cardSize = heap.cards.cardSize
  isDirty : ∀ index, after.cards.isDirty index = heap.cards.isDirty index

namespace Enlarges

variable {heap after : Heap Source}

theorem refl (spans : heap.cards.Spans heap.old) : heap.Enlarges heap where
  frame := ⟨heap.memory, heap.old.capacity, heap.cards, Nat.le_refl _, rfl⟩
  spans := spans
  cardSize := rfl
  isDirty := fun _ => rfl

theorem directory (larger : heap.Enlarges after) : after.directory = heap.directory := by
  obtain ⟨_, _, _, _, rfl⟩ := larger.frame
  rfl

theorem settings (larger : heap.Enlarges after) : after.settings = heap.settings := by
  obtain ⟨_, _, _, _, rfl⟩ := larger.frame
  rfl

theorem threshold (larger : heap.Enlarges after) : after.threshold = heap.threshold := by
  obtain ⟨_, _, _, _, rfl⟩ := larger.frame
  rfl

theorem holding (larger : heap.Enlarges after) : after.holding = heap.holding := by
  obtain ⟨_, _, _, _, rfl⟩ := larger.frame
  rfl

theorem arena_of_young (larger : heap.Enlarges after) {space : Space} (young : space ≠ .old) :
    after.arena space = heap.arena space := by
  obtain ⟨_, _, _, _, rfl⟩ := larger.frame
  cases space with
  | eden => rfl
  | survivor side => cases side <;> rfl
  | old => exact absurd rfl young

theorem old (larger : heap.Enlarges after) :
    ∃ capacity, heap.old.capacity ≤ capacity ∧ after.old = { heap.old with capacity } := by
  obtain ⟨_, capacity, _, wider, rfl⟩ := larger.frame
  exact ⟨capacity, wider, rfl⟩

theorem base (larger : heap.Enlarges after) (space : Space) :
    (after.arena space).base = (heap.arena space).base := by
  by_cases here : space = .old
  · subst here
    obtain ⟨_, _, old⟩ := larger.old
    rw [Heap.arena, old]
    rfl
  · rw [larger.arena_of_young here]

theorem fills (larger : heap.Enlarges after) {space : Space}
    (fills : heap.directory.Fills space (heap.arena space)) :
    after.directory.Fills space (after.arena space) := by
  rw [larger.directory]
  by_cases here : space = .old
  · subst here
    obtain ⟨capacity, wider, old⟩ := larger.old
    rw [Heap.arena, old]
    exact fills.widen wider
  · rw [larger.arena_of_young here]
    exact fills

theorem base_cards (larger : heap.Enlarges after) (spans : heap.cards.Spans heap.old) :
    after.cards.base = heap.cards.base := by
  obtain ⟨_, _, old⟩ := larger.old
  rw [larger.spans.base, spans.base, old]

theorem cardIndex_eq (larger : heap.Enlarges after) (spans : heap.cards.Spans heap.old)
    (address : Nat) : after.cards.cardIndex address = heap.cards.cardIndex address := by
  unfold CardTable.cardIndex
  rw [larger.base_cards spans, larger.cardSize]

theorem remembers (larger : heap.Enlarges after) (spans : heap.cards.Spans heap.old)
    {address : Nat} (remembered : heap.cards.Remembers address) :
    after.cards.Remembers address := by
  obtain ⟨capacity, wider, old⟩ := larger.old
  obtain ⟨⟨above, below⟩, dirty⟩ := remembered
  have base := larger.base_cards spans
  have extent : after.cards.extent = capacity := by rw [larger.spans.extent, old]
  have before := spans.extent
  refine ⟨⟨by omega, by omega⟩, ?_⟩
  rw [larger.cardIndex_eq spans, larger.isDirty]
  exact dirty

theorem sound (larger : heap.Enlarges after) (sound : heap.Sound) : after.Sound := by
  have consistent := sound.consistent
  refine ⟨⟨?_, fun space => ?_, ?_, larger.spans⟩, ?_, ?_⟩
  · rw [larger.directory]
    exact consistent.directory
  · exact larger.fills (consistent.fills space)
  · rw [larger.directory]
    exact consistent.generation
  · rw [larger.directory]
    exact sound.closed
  · intro holder record found old references
    rw [larger.directory] at found references
    exact larger.remembers consistent.cards (sound.remembered holder record found old references)

end Enlarges

section Requests

variable [MemorySource Source] {heap after : Heap Source}

/-- Room that is granted is added to the old space; otherwise nothing changes there. -/
theorem growOld_eq_ok {additional : Nat} {granted : Bool} (spans : heap.cards.Spans heap.old)
    (ran : heap.growOld additional = .ok (granted, after)) :
    heap.Enlarges after ∧
      after.old.capacity = heap.old.capacity + (if granted then additional else 0) ∧
      MemorySource.extend heap.memory .old heap.old.base heap.old.capacity additional =
        .ok (granted, after.memory) := by
  unfold growOld at ran
  rw [Checked.bind_eq_ok_iff] at ran
  obtain ⟨⟨given, memory⟩, extended, ran⟩ := ran
  cases given with
  | false =>
      simp only [Bool.false_eq_true, ↓reduceIte, Checked.pure_eq_ok_iff, Prod.mk.injEq] at ran
      obtain ⟨rfl, rfl⟩ := ran
      exact ⟨⟨⟨memory, _, _, Nat.le_refl _, rfl⟩, spans, rfl, fun _ => rfl⟩, rfl, extended⟩
  | true =>
      simp only [↓reduceIte, Arena.grow, Checked.bind_eq_ok_iff, Word.add_eq_ok_iff,
        Checked.pure_eq_ok_iff, Prod.mk.injEq] at ran
      obtain ⟨_, ⟨_, ⟨_, rfl⟩, rfl⟩, cards, resized, rfl, rfl⟩ := ran
      have grows : heap.cards.extent ≤ heap.old.capacity + additional := by
        rw [spans.extent]
        omega
      obtain ⟨wellFormed, base, extent, cardSize, marks⟩ :=
        CardTable.resize_eq_ok spans.wellFormed grows resized
      exact ⟨⟨⟨memory, _, cards, by omega, rfl⟩, ⟨wellFormed, base.trans spans.base, extent⟩,
        cardSize, marks⟩, rfl, extended⟩

/-- The old space has a place, or it is asked to grow for one. -/
inductive PlacesInOld (heap : Heap Source) (size : Nat) : Option Placement → Heap Source → Prop where
  | room {place : Placement} (placed : heap.old.placement? size = .ok (some place)) :
      PlacesInOld heap size (some place) heap
  | grown {aligned : Nat} {answer : Option Placement} {after : Heap Source}
      (full : heap.old.placement? size = .ok none) (rounded : alignSize size = .ok aligned)
      (grew : heap.growOld (max aligned (heap.old.capacity / 2)) = .ok (true, after))
      (placed : after.old.placement? size = .ok answer) : PlacesInOld heap size answer after
  | refused {aligned : Nat} {after : Heap Source}
      (full : heap.old.placement? size = .ok none) (rounded : alignSize size = .ok aligned)
      (refused : heap.growOld (max aligned (heap.old.capacity / 2)) = .ok (false, after)) :
      PlacesInOld heap size none after

theorem placesInOld_of_eq_ok {size : Nat} {answer : Option Placement}
    (ran : heap.placementInOld size = .ok (answer, after)) :
    heap.PlacesInOld size answer after := by
  unfold placementInOld at ran
  rw [Checked.bind_eq_ok_iff] at ran
  obtain ⟨first, placed, ran⟩ := ran
  cases first with
  | some place =>
      simp only [Checked.pure_eq_ok_iff, Prod.mk.injEq] at ran
      obtain ⟨rfl, rfl⟩ := ran
      exact .room placed
  | none =>
      simp only [Checked.bind_eq_ok_iff] at ran
      obtain ⟨aligned, rounded, ⟨granted, grown⟩, grew, ran⟩ := ran
      cases granted with
      | false =>
          simp only [Bool.false_eq_true, ↓reduceIte, Checked.pure_eq_ok_iff,
            Prod.mk.injEq] at ran
          obtain ⟨rfl, rfl⟩ := ran
          exact .refused placed rounded grew
      | true =>
          simp only [↓reduceIte, Checked.bind_eq_ok_iff, Checked.pure_eq_ok_iff,
            Prod.mk.injEq] at ran
          obtain ⟨_, replaced, rfl, rfl⟩ := ran
          exact .grown placed rounded grew replaced

/-- A place in the old space is the next one of the old space after its growth. -/
theorem placementInOld_eq_ok {size : Nat} {answer : Option Placement}
    (spans : heap.cards.Spans heap.old)
    (ran : heap.placementInOld size = .ok (answer, after)) :
    heap.Enlarges after ∧
      ∀ place, answer = some place → after.old.placement? size = .ok (some place) := by
  cases placesInOld_of_eq_ok ran with
  | room placed => exact ⟨.refl spans, fun place same => same ▸ placed⟩
  | grown _ _ grew placed => exact ⟨(growOld_eq_ok spans grew).1, fun place same => same ▸ placed⟩
  | refused _ _ refused => exact ⟨(growOld_eq_ok spans refused).1, nofun⟩

/-- Room in the old space was asked for once, or not at all. -/
inductive Grows (heap : Heap Source) : Heap Source → Prop where
  | unasked : Grows heap heap
  | asked {additional : Nat} {granted : Bool} {after : Heap Source}
      (ran : heap.growOld additional = .ok (granted, after)) : Grows heap after

theorem grows_of_placementInOld {size : Nat} {answer : Option Placement}
    (ran : heap.placementInOld size = .ok (answer, after)) : heap.Grows after := by
  cases placesInOld_of_eq_ok ran with
  | room _ => exact .unasked
  | grown _ _ grew _ => exact .asked grew
  | refused _ _ refused => exact .asked refused

end Requests

end Tenure.Heap
