import Tenure.Cards.Scan
import Tenure.Proofs.Checked

/-!
# Marks of cards

Every address that a card table covers lies in one card. Marking dirties that card
and no other, cleaning does the reverse, and a table that grows keeps its marks.
-/

set_option autoImplicit false

namespace Tenure.CardTable

/-- The addresses that lie in a card. -/
def Covers (table : CardTable) (address : Nat) : Prop :=
  table.base ≤ address ∧ address < table.base + table.extent

instance (table : CardTable) (address : Nat) : Decidable (table.Covers address) :=
  inferInstanceAs (Decidable (_ ∧ _))

def cardIndex (table : CardTable) (address : Nat) : Nat :=
  (address - table.base) / table.cardSize

/-- An address lies in a dirty card. -/
def Remembers (table : CardTable) (address : Nat) : Prop :=
  table.Covers address ∧ table.isDirty (table.cardIndex address) = true

instance (table : CardTable) (address : Nat) : Decidable (table.Remembers address) :=
  inferInstanceAs (Decidable (_ ∧ _))

structure WellFormed (table : CardTable) : Prop where
  cardSize_pos : 0 < table.cardSize
  size_eq : table.size = cardsFor table.extent table.cardSize

/-- Two tables divide the same addresses into the same cards. -/
structure SameCards (table after : CardTable) : Prop where
  base : after.base = table.base
  extent : after.extent = table.extent
  cardSize : after.cardSize = table.cardSize
  size : after.size = table.size

theorem SameCards.refl (table : CardTable) : table.SameCards table := ⟨rfl, rfl, rfl, rfl⟩

theorem SameCards.trans {table middle after : CardTable} (first : table.SameCards middle)
    (second : middle.SameCards after) : table.SameCards after where
  base := second.base.trans first.base
  extent := second.extent.trans first.extent
  cardSize := second.cardSize.trans first.cardSize
  size := second.size.trans first.size

theorem SameCards.wellFormed {table after : CardTable} (same : table.SameCards after)
    (wellFormed : table.WellFormed) : after.WellFormed where
  cardSize_pos := by
    rw [same.cardSize]
    exact wellFormed.cardSize_pos
  size_eq := by
    rw [same.size, same.extent, same.cardSize]
    exact wellFormed.size_eq

theorem SameCards.covers_iff {table after : CardTable} (same : table.SameCards after)
    {address : Nat} : after.Covers address ↔ table.Covers address := by
  unfold Covers
  rw [same.base, same.extent]

theorem SameCards.cardIndex_eq {table after : CardTable} (same : table.SameCards after)
    (address : Nat) : after.cardIndex address = table.cardIndex address := by
  unfold cardIndex
  rw [same.base, same.cardSize]

theorem isPowerOfTwo_pos {value : Nat} (power : Word.isPowerOfTwo value = true) : 0 < value := by
  obtain ⟨exponent, rfl⟩ := Word.isPowerOfTwo_iff.mp power
  exact Nat.pow_pos (by decide)

theorem create_eq_ok {base extent cardSize : Nat} {table : CardTable}
    (ran : create base extent cardSize = .ok table) :
    table.WellFormed ∧ table.base = base ∧ table.extent = extent ∧
      table.cardSize = cardSize := by
  unfold create at ran
  split at ran
  · rename_i power
    simp only [Checked.bind_eq_ok_iff, Checked.pure_eq_ok_iff] at ran
    obtain ⟨_, _, rfl⟩ := ran
    exact ⟨⟨isPowerOfTwo_pos power, by simp [size]⟩, rfl, rfl, rfl⟩
  · simp at ran

theorem le_cardsFor_mul (extent : Nat) {cardSize : Nat} (positive : 0 < cardSize) :
    extent ≤ cardsFor extent cardSize * cardSize := by
  unfold cardsFor
  have split := Nat.div_add_mod (extent + cardSize - 1) cardSize
  have small := Nat.mod_lt (extent + cardSize - 1) positive
  rw [Nat.mul_comm] at split
  omega

theorem cardsFor_mono {extent wider cardSize : Nat} (grows : extent ≤ wider) :
    cardsFor extent cardSize ≤ cardsFor wider cardSize :=
  Nat.div_le_div_right (by omega)

theorem WellFormed.cardIndex_lt {table : CardTable} (wellFormed : table.WellFormed)
    {address : Nat} (covered : table.Covers address) :
    table.cardIndex address < table.size := by
  obtain ⟨above, below⟩ := covered
  rw [wellFormed.size_eq, cardIndex, Nat.div_lt_iff_lt_mul wellFormed.cardSize_pos]
  have reaches := le_cardsFor_mul table.extent wellFormed.cardSize_pos
  omega

theorem cardOf_eq_ok {table : CardTable} {address : Nat} {answer : Option Nat}
    (ran : table.cardOf address = .ok answer) :
    (table.Covers address ∧ answer = some (table.cardIndex address)) ∨
      (¬ table.Covers address ∧ answer = none) := by
  unfold cardOf at ran
  unfold Covers
  split at ran
  · rename_i below
    simp only [Except.ok.injEq] at ran
    exact .inr ⟨by omega, ran.symm⟩
  · rename_i above
    simp only [Checked.bind_eq_ok_iff, Word.add_eq_ok_iff] at ran
    obtain ⟨stop, ⟨_, rfl⟩, answered⟩ := ran
    split at answered
    · rename_i beyond
      rw [Checked.pure_eq_ok_iff] at answered
      exact .inr ⟨by omega, answered.symm⟩
    · rename_i inside
      rw [Checked.pure_eq_ok_iff] at answered
      exact .inl ⟨by omega, answered.symm⟩

def dirtied (table : CardTable) (index : Nat) : CardTable :=
  { table with marks := table.marks.setIfInBounds index true }

theorem sameCards_dirtied (table : CardTable) (index : Nat) :
    table.SameCards (table.dirtied index) :=
  ⟨rfl, rfl, rfl, by simp [size, dirtied]⟩

theorem isDirty_dirtied {table : CardTable} {index : Nat} (inside : index < table.size)
    (other : Nat) :
    (table.dirtied index).isDirty other = (table.isDirty other || decide (index = other)) := by
  have inside : index < table.marks.size := inside
  by_cases same : index = other
  · subst same
    simp [isDirty, dirtied, inside]
  · simp [isDirty, dirtied, same]

/-- Marking dirties the card of a covered address and does nothing otherwise. -/
theorem mark_eq_ok {table after : CardTable} {address : Nat} {marked : Bool}
    (ran : table.mark address = .ok (marked, after)) :
    (marked = false ∧ ¬ table.Covers address ∧ after = table) ∨
      (marked = true ∧ table.Covers address ∧ table.cardIndex address < table.size ∧
        after = table.dirtied (table.cardIndex address)) := by
  unfold mark at ran
  rw [Checked.bind_eq_ok_iff] at ran
  obtain ⟨answer, found, answered⟩ := ran
  rcases cardOf_eq_ok found with ⟨covered, rfl⟩ | ⟨uncovered, rfl⟩
  · simp only at answered
    split at answered
    · rename_i inside
      simp only [Checked.pure_eq_ok_iff, Prod.mk.injEq] at answered
      obtain ⟨rfl, rfl⟩ := answered
      exact .inr ⟨rfl, covered, inside, rfl⟩
    · exact absurd answered Checked.throw_ne_ok
  · simp only [Checked.pure_eq_ok_iff, Prod.mk.injEq] at answered
    obtain ⟨rfl, rfl⟩ := answered
    exact .inl ⟨rfl, uncovered, rfl⟩

theorem sameCards_of_mark {table after : CardTable} {address : Nat} {marked : Bool}
    (ran : table.mark address = .ok (marked, after)) : table.SameCards after := by
  rcases mark_eq_ok ran with ⟨_, _, rfl⟩ | ⟨_, _, _, rfl⟩
  · exact .refl _
  · exact sameCards_dirtied _ _

theorem isDirty_of_mark {table after : CardTable} {address : Nat} {marked : Bool}
    (ran : table.mark address = .ok (marked, after)) (index : Nat) :
    after.isDirty index = true ↔ table.isDirty index = true ∨
      table.Covers address ∧ table.cardIndex address = index := by
  rcases mark_eq_ok ran with ⟨_, uncovered, rfl⟩ | ⟨_, covered, inside, rfl⟩
  · simp [uncovered]
  · simp [isDirty_dirtied inside, covered]

theorem remembers_of_mark {table after : CardTable} {address : Nat} {marked : Bool}
    (ran : table.mark address = .ok (marked, after)) (covered : table.Covers address) :
    after.Remembers address := by
  have same := sameCards_of_mark ran
  refine ⟨same.covers_iff.mpr covered, ?_⟩
  rw [same.cardIndex_eq, isDirty_of_mark ran]
  exact .inr ⟨covered, rfl⟩

theorem Remembers.of_mark {table after : CardTable} {address other : Nat} {marked : Bool}
    (remembered : table.Remembers other)
    (ran : table.mark address = .ok (marked, after)) : after.Remembers other := by
  have same := sameCards_of_mark ran
  refine ⟨same.covers_iff.mpr remembered.1, ?_⟩
  rw [same.cardIndex_eq, isDirty_of_mark ran]
  exact .inl remembered.2

theorem sameCards_clean (table : CardTable) (index : Nat) :
    table.SameCards (table.clean index) :=
  ⟨rfl, rfl, rfl, by simp [size, clean]⟩

theorem isDirty_clean (table : CardTable) (index other : Nat) :
    (table.clean index).isDirty other = true ↔ table.isDirty other = true ∧ index ≠ other := by
  by_cases same : index = other
  · subst same
    by_cases inside : index < table.marks.size
    · simp [isDirty, clean, inside]
    · simp [isDirty, clean, inside]
  · simp [isDirty, clean, same]

theorem sameCards_clear (table : CardTable) : table.SameCards table.clear :=
  ⟨rfl, rfl, rfl, by simp [size, clear]⟩

theorem isDirty_clear (table : CardTable) (index : Nat) : table.clear.isDirty index = false := by
  simp only [isDirty, clear, Array.getD_eq_getD_getElem?, Array.getElem?_replicate]
  split <;> rfl

theorem lt_size_of_isDirty {table : CardTable} {index : Nat}
    (dirty : table.isDirty index = true) : index < table.size := by
  by_cases inside : index < table.marks.size
  · exact inside
  · simp [isDirty, inside] at dirty

theorem mem_dirty {table : CardTable} {index : Nat} :
    index ∈ table.dirty ↔ table.isDirty index = true := by
  rw [dirty, List.mem_filter, List.mem_range]
  exact ⟨fun member => member.2, fun marked => ⟨lt_size_of_isDirty marked, marked⟩⟩

/-- A table that grows has more cards; those that were there keep their marks. -/
theorem resize_eq_ok {table after : CardTable} {extent : Nat} (wellFormed : table.WellFormed)
    (grows : table.extent ≤ extent) (ran : table.resize extent = .ok after) :
    after.WellFormed ∧ after.base = table.base ∧ after.extent = extent ∧
      after.cardSize = table.cardSize ∧ ∀ index, after.isDirty index = table.isDirty index := by
  unfold resize at ran
  simp only [Checked.bind_eq_ok_iff, Checked.pure_eq_ok_iff] at ran
  obtain ⟨_, _, rfl⟩ := ran
  have more : table.marks.size ≤ cardsFor extent table.cardSize := by
    have same : table.marks.size = cardsFor table.extent table.cardSize := wellFormed.size_eq
    rw [same]
    exact cardsFor_mono grows
  refine ⟨⟨wellFormed.cardSize_pos, ?_⟩, rfl, rfl, rfl, fun index => ?_⟩
  · simp only [size, Array.size_append, Array.size_extract, Array.size_replicate]
    omega
  · by_cases inside : index < table.marks.size
    · have kept : index < (table.marks.extract 0 (cardsFor extent table.cardSize)).size := by
        simp only [Array.size_extract]
        omega
      simp only [isDirty, Array.getD_eq_getD_getElem?]
      rw [Array.getElem?_append_left kept, Array.getElem?_extract, if_pos (by omega),
        Nat.zero_add]
    · have kept : (table.marks.extract 0 (cardsFor extent table.cardSize)).size ≤ index := by
        simp only [Array.size_extract]
        omega
      simp only [isDirty, Array.getD_eq_getD_getElem?]
      rw [Array.getElem?_append_right kept, Array.getElem?_replicate,
        Array.getElem?_eq_none (by omega)]
      split <;> rfl

end Tenure.CardTable
