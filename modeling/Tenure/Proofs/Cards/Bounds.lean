import Tenure.Cards.Barrier
import Tenure.Proofs.Cards.Holders

/-!
# Card tables inside the address space

The end of a card is computed before it is cut off at the end of the table, so one more
card than the table covers has to fit into the address space. Then marking, scanning and
passing a store all answer.
-/

set_option autoImplicit false

namespace Tenure.CardTable

open Checked

variable {table : CardTable}

/-- No card of the table, the last one taken whole, ends outside the address space. -/
def Addressable (table : CardTable) : Prop :=
  table.base + table.extent + table.cardSize < Word.limit

theorem SameCards.addressable {after : CardTable} (same : table.SameCards after)
    (addressable : table.Addressable) : after.Addressable := by
  unfold Addressable
  rw [same.base, same.extent, same.cardSize]
  exact addressable

theorem answers_cardOf (ends : table.base + table.extent < Word.limit) (address : Nat) :
    Answers (table.cardOf address) := by
  unfold cardOf
  split
  · exact answers_pure none
  · refine Answers.bind ⟨_, Word.add_of_lt ends⟩ fun stop _ => ?_
    split
    · exact answers_pure none
    · exact answers_pure (some _)

theorem WellFormed.answers_mark (wellFormed : table.WellFormed)
    (ends : table.base + table.extent < Word.limit) (address : Nat) :
    Answers (table.mark address) := by
  refine (answers_cardOf ends address).bind fun answer found => ?_
  rcases cardOf_eq_ok found with ⟨covered, rfl⟩ | ⟨_, rfl⟩
  · have inside := wellFormed.cardIndex_lt covered
    simp only [inside, ↓reduceIte]
    exact answers_pure _
  · exact answers_pure _

theorem Addressable.ends (addressable : table.Addressable) :
    table.base + table.extent < Word.limit := by
  unfold Addressable at addressable
  omega

theorem Addressable.answers_mark (addressable : table.Addressable)
    (wellFormed : table.WellFormed) (address : Nat) : Answers (table.mark address) :=
  wellFormed.answers_mark addressable.ends address

theorem Addressable.answers_onStore (addressable : table.Addressable)
    (wellFormed : table.WellFormed) (counts : BarrierCounts) (holder : Generation)
    (address : Nat) (value : Option Generation) :
    Answers (table.onStore counts holder address value) := by
  unfold onStore
  split
  · refine (addressable.answers_mark wellFormed address).bind fun marked _ => ?_
    dsimp only
    split
    · exact answers_pure _
    · exact answers_pure _
  · exact answers_pure _

/-! ## Scans -/

theorem mul_lt_of_lt_cardsFor {extent cardSize index : Nat} (positive : 0 < cardSize)
    (inside : index < cardsFor extent cardSize) : index * cardSize < extent := by
  have reaches := (Nat.le_div_iff_mul_le positive).mp (Nat.succ_le_of_lt inside)
  rw [Nat.succ_mul] at reaches
  omega

theorem cardsFor_mul_lt (extent : Nat) {cardSize : Nat} (positive : 0 < cardSize) :
    cardsFor extent cardSize * cardSize < extent + cardSize := by
  have reaches := Nat.div_mul_le_self (extent + cardSize - 1) cardSize
  unfold cardsFor
  omega

/-- The bounds of all cards can be computed if the last card, taken whole, ends inside the
address space. -/
theorem WellFormed.answers_range (wellFormed : table.WellFormed)
    (fits : table.base + table.size * table.cardSize < Word.limit) (index : Nat) :
    Answers (table.range index) := by
  unfold range
  split
  · exact answers_pure none
  · rename_i inside
    have reaches := le_cardsFor_mul table.extent wellFormed.cardSize_pos
    have ends : (index + 1) * table.cardSize ≤ table.size * table.cardSize :=
      Nat.mul_le_mul_right table.cardSize (Nat.succ_le_of_lt (Nat.lt_of_not_le inside))
    rw [← wellFormed.size_eq] at reaches
    rw [Nat.succ_mul] at ends
    have start : table.base + index * table.cardSize < Word.limit := by omega
    refine Answers.bind ⟨_, Word.add_of_lt start⟩ fun first found => ?_
    obtain ⟨_, rfl⟩ := Word.add_eq_ok_iff.mp found
    refine Answers.bind ⟨_, Word.add_of_lt (by omega)⟩ fun stop _ => ?_
    exact Answers.bind ⟨_, Word.add_of_lt (by omega)⟩ fun last _ => answers_pure _

theorem Addressable.answers_range (addressable : table.Addressable)
    (wellFormed : table.WellFormed) (index : Nat) : Answers (table.range index) := by
  have beyond := cardsFor_mul_lt table.extent wellFormed.cardSize_pos
  rw [← wellFormed.size_eq] at beyond
  unfold Addressable at addressable
  exact wellFormed.answers_range (by omega) index

theorem Addressable.answers_scan (addressable : table.Addressable)
    (wellFormed : table.WellFormed) (view : CardView) (index : Nat) :
    Answers (table.scan view index) := by
  have same := sameCards_clean table index
  refine ((same.addressable addressable).answers_range (same.wellFormed wellFormed) index).bind
    fun bounds _ => ?_
  cases bounds with
  | none => exact answers_pure _
  | some bounds => exact answers_pure _

theorem Addressable.answers_scanAll (addressable : table.Addressable)
    (wellFormed : table.WellFormed) (view : CardView) (indices : List Nat) :
    Answers (table.scanAll view indices) := by
  refine answers_foldlM (fun _ (state : List Handle × CardTable) => table.SameCards state.2)
    (.refl table) ?_ ?_
  · intro seen index rest state _ same
    refine ((same.addressable addressable).answers_scan (same.wellFormed wellFormed) view
      index).bind fun found _ => answers_pure _
  · intro seen index rest state after _ same stepped
    simp only [bind_eq_ok_iff, pure_eq_ok_iff] at stepped
    obtain ⟨⟨found, cleaned⟩, scanned, rfl⟩ := stepped
    rw [(scan_eq_ok scanned).1]
    exact same.trans (sameCards_clean state.2 index)

/-! ## New tables and growth -/

theorem cardsFor_le {extent cardSize : Nat} (positive : 0 < cardSize) :
    cardsFor extent cardSize ≤ extent := by
  cases cards : cardsFor extent cardSize with
  | zero => exact Nat.zero_le extent
  | succ last =>
      have begins : last * cardSize < extent :=
        mul_lt_of_lt_cardsFor positive (cards ▸ Nat.lt_succ_self last)
      have wide := Nat.le_mul_of_pos_right last positive
      omega

/-- A table with the marks of all cards exists if one with a mark for every byte does. -/
theorem cardsFor_mul_le {extent cardSize : Nat} (positive : 0 < cardSize)
    (small : extent ≤ Word.largestTable) :
    cardsFor extent cardSize * markWidth ≤ Word.largestTable := by
  rw [markWidth, Nat.mul_one]
  exact Nat.le_trans (cardsFor_le positive) small

theorem answers_create {extent cardSize : Nat} (power : Word.isPowerOfTwo cardSize = true)
    (small : extent ≤ Word.largestTable) (base : Nat) : Answers (create base extent cardSize) := by
  have fits := cardsFor_mul_le (isPowerOfTwo_pos power) small
  simp only [create, power, ↓reduceIte]
  exact Answers.bind ⟨(), Word.checkTable_eq_ok_iff.mpr fits⟩ fun _ _ => answers_pure _

theorem WellFormed.answers_resize (wellFormed : table.WellFormed) {extent : Nat}
    (small : extent ≤ Word.largestTable) : Answers (table.resize extent) := by
  have fits := cardsFor_mul_le wellFormed.cardSize_pos small
  exact Answers.bind ⟨(), Word.checkTable_eq_ok_iff.mpr fits⟩ fun _ _ => answers_pure _

end Tenure.CardTable
