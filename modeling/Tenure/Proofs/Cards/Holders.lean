import Tenure.Proofs.Cards.Marks

/-!
# Holders found on cards

Scanning the dirty cards cleans all of them and answers exactly the objects that
overlap one of them and reference a young object.
-/

set_option autoImplicit false

namespace Tenure.CardTable

def cardStart (table : CardTable) (index : Nat) : Nat := table.base + index * table.cardSize

/-- The address after the last one of a card; the last card may be cut off. -/
def cardStop (table : CardTable) (index : Nat) : Nat :=
  min (table.cardStart index + table.cardSize) (table.base + table.extent)

theorem WellFormed.mem_card {table : CardTable} (wellFormed : table.WellFormed) {address : Nat}
    (covered : table.Covers address) :
    table.cardStart (table.cardIndex address) ≤ address ∧
      address < table.cardStop (table.cardIndex address) := by
  obtain ⟨above, below⟩ := covered
  have split := Nat.div_add_mod (address - table.base) table.cardSize
  have small := Nat.mod_lt (address - table.base) wellFormed.cardSize_pos
  rw [Nat.mul_comm] at split
  unfold cardStop cardStart cardIndex
  omega

/-- An address lies between the bounds of a card of the table. -/
structure InCard (table : CardTable) (index address : Nat) : Prop where
  inside : index < table.size
  above : table.cardStart index ≤ address
  below : address < table.cardStop index

theorem WellFormed.inCard_iff {table : CardTable} (wellFormed : table.WellFormed)
    {index address : Nat} :
    table.InCard index address ↔ table.Covers address ∧ table.cardIndex address = index := by
  constructor
  · intro within
    have above := within.above
    have below := within.below
    have next : (index + 1) * table.cardSize = index * table.cardSize + table.cardSize :=
      Nat.succ_mul index table.cardSize
    unfold cardStop cardStart at *
    refine ⟨⟨by omega, by omega⟩, ?_⟩
    exact Nat.div_eq_of_lt_le (by omega) (by omega)
  · intro covered
    obtain ⟨covered, rfl⟩ := covered
    obtain ⟨above, below⟩ := wellFormed.mem_card covered
    exact ⟨wellFormed.cardIndex_lt covered, above, below⟩

/-- The cards cover what the table covers and nothing else. -/
theorem WellFormed.exists_inCard_iff {table : CardTable} (wellFormed : table.WellFormed)
    {address : Nat} : (∃ index, table.InCard index address) ↔ table.Covers address := by
  simp only [wellFormed.inCard_iff, exists_and_left, exists_eq', and_true]

theorem range_eq_ok {table : CardTable} {index : Nat} {answer : Option (Nat × Nat)}
    (ran : table.range index = .ok answer) :
    (index < table.size ∧ answer = some (table.cardStart index, table.cardStop index)) ∨
      (table.size ≤ index ∧ answer = none) := by
  unfold range at ran
  split at ran
  · rename_i outside
    simp only [Except.ok.injEq] at ran
    exact .inr ⟨outside, ran.symm⟩
  · rename_i inside
    simp only [Checked.bind_eq_ok_iff, Word.add_eq_ok_iff, Checked.pure_eq_ok_iff] at ran
    obtain ⟨start, ⟨_, rfl⟩, stop, ⟨_, rfl⟩, last, ⟨_, rfl⟩, rfl⟩ := ran
    exact .inl ⟨by omega, rfl⟩

def FoundOn (table : CardTable) (view : CardView) (index : Nat) (holder : Handle) : Prop :=
  index < table.size ∧
    holder ∈ view.overlapping (table.cardStart index) (table.cardStop index) ∧
    view.referencesYoung holder = true

theorem SameCards.foundOn_iff {table after : CardTable} (same : table.SameCards after)
    {view : CardView} {index : Nat} {holder : Handle} :
    after.FoundOn view index holder ↔ table.FoundOn view index holder := by
  unfold FoundOn cardStop cardStart
  rw [same.base, same.extent, same.cardSize, same.size]

theorem scan_eq_ok {table after : CardTable} {view : CardView} {index : Nat}
    {found : List Handle} (ran : table.scan view index = .ok (found, after)) :
    after = table.clean index ∧ ∀ holder, holder ∈ found ↔ table.FoundOn view index holder := by
  have same := sameCards_clean table index
  unfold scan at ran
  simp only [Checked.bind_eq_ok_iff] at ran
  obtain ⟨answer, ranged, answered⟩ := ran
  rcases range_eq_ok ranged with ⟨inside, rfl⟩ | ⟨outside, rfl⟩
  · simp only [Checked.pure_eq_ok_iff, Prod.mk.injEq] at answered
    obtain ⟨rfl, rfl⟩ := answered
    refine ⟨rfl, fun holder => ?_⟩
    rw [List.mem_filter, ← same.foundOn_iff]
    exact ⟨fun met => ⟨inside, met⟩, fun met => met.2⟩
  · simp only [Checked.pure_eq_ok_iff, Prod.mk.injEq] at answered
    obtain ⟨rfl, rfl⟩ := answered
    refine ⟨rfl, fun holder => ?_⟩
    rw [← same.foundOn_iff]
    simp only [List.not_mem_nil, FoundOn, false_iff, not_and]
    intro inside
    omega

/-- Scanning several cards cleans these and no others. -/
theorem scanAll_eq_ok {table after : CardTable} {view : CardView} {indices : List Nat}
    {found : List Handle} (ran : table.scanAll view indices = .ok (found, after)) :
    table.SameCards after ∧
      (∀ index, after.isDirty index = true ↔ table.isDirty index = true ∧ index ∉ indices) ∧
      ∀ holder, holder ∈ found ↔ ∃ index ∈ indices, table.FoundOn view index holder := by
  refine Checked.foldlM_induction (fun seen (state : List Handle × CardTable) =>
    table.SameCards state.2 ∧
      (∀ index, state.2.isDirty index = true ↔ table.isDirty index = true ∧ index ∉ seen) ∧
      ∀ holder, holder ∈ state.1 ↔ ∃ index ∈ seen, table.FoundOn view index holder)
    ran ⟨.refl table, by simp, by simp⟩ ?_
  intro seen index rest state final _ holds stepped
  obtain ⟨holders, current⟩ := state
  obtain ⟨same, marks, members⟩ := holds
  simp only [Checked.bind_eq_ok_iff, Checked.pure_eq_ok_iff] at stepped
  obtain ⟨⟨more, cleaned⟩, scanned, rfl⟩ := stepped
  obtain ⟨rfl, more_iff⟩ := scan_eq_ok scanned
  refine ⟨same.trans (sameCards_clean current index), fun other => ?_, fun holder => ?_⟩
  · rw [isDirty_clean, marks, List.mem_append, List.mem_singleton]
    constructor
    · intro left
      obtain ⟨⟨dirty, unseen⟩, different⟩ := left
      exact ⟨dirty, fun member => member.elim unseen fun equal => different equal.symm⟩
    · intro left
      obtain ⟨dirty, unseen⟩ := left
      exact ⟨⟨dirty, fun member => unseen (.inl member)⟩,
        fun equal => unseen (.inr equal.symm)⟩
  · rw [List.mem_append, members, more_iff, same.foundOn_iff]
    simp only [List.mem_append, List.mem_singleton]
    constructor
    · intro seen
      rcases seen with ⟨earlier, member, met⟩ | met
      · exact ⟨earlier, .inl member, met⟩
      · exact ⟨index, .inr rfl, met⟩
    · intro seen
      rcases seen with ⟨earlier, member | rfl, met⟩
      · exact .inl ⟨earlier, member, met⟩
      · exact .inr met

/-- Scanning the dirty cards leaves none. -/
theorem scanAll_dirty {table after : CardTable} {view : CardView} {found : List Handle}
    (ran : table.scanAll view table.dirty = .ok (found, after)) :
    table.SameCards after ∧ (∀ index, after.isDirty index = false) ∧
      ∀ holder, holder ∈ found ↔
        ∃ index, table.isDirty index = true ∧ table.FoundOn view index holder := by
  obtain ⟨same, marks, members⟩ := scanAll_eq_ok ran
  refine ⟨same, fun index => ?_, fun holder => ?_⟩
  · rw [Bool.eq_false_iff]
    intro dirty
    obtain ⟨before, unseen⟩ := (marks index).mp dirty
    exact unseen (mem_dirty.mpr before)
  · rw [members]
    simp only [mem_dirty]

end Tenure.CardTable
