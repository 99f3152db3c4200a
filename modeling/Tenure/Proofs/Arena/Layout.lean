import Mathlib.Algebra.GroupWithZero.Nat
import Mathlib.Data.List.Pairwise
import Mathlib.Order.Bounds.Basic
import Tenure.Arena.Slide
import Tenure.Proofs.Checked

/-!
# The layout of arenas

Residents lie one after the other from the base on. What an arena has in use is what
its residents take, and every resident takes whole granules.
-/

set_option autoImplicit false

namespace Tenure

/-- Storage consists of whole granules, at least one. -/
def WholeGranules (size : Nat) : Prop := 0 < size ∧ granule ∣ size

/-- The fewest whole granules that hold a size, and at least one of them. -/
def roundedSize (size : Nat) : Nat := (max size 1 + (granule - 1)) / granule * granule

theorem alignSize_eq_ok_iff {size rounded : Nat} : alignSize size = .ok rounded ↔
    max size 1 + granule < Word.limit ∧ rounded = roundedSize size := by
  unfold alignSize
  simp only [Checked.bind_eq_ok_iff, Word.add_eq_ok_iff, Checked.pure_eq_ok_iff]
  constructor
  · intro ran
    obtain ⟨_, ⟨small, rfl⟩, rfl⟩ := ran
    exact ⟨small, rfl⟩
  · intro rounds
    obtain ⟨small, rfl⟩ := rounds
    exact ⟨_, ⟨small, rfl⟩, rfl⟩

theorem isLeast_roundedSize (size : Nat) :
    IsLeast {rounded | granule ∣ rounded ∧ max size 1 ≤ rounded} (roundedSize size) := by
  refine ⟨⟨Nat.dvd_mul_left granule _, ?_⟩, fun rounded bounds => ?_⟩
  · simp only [roundedSize, granule]
    omega
  · obtain ⟨⟨count, rfl⟩, holds⟩ := bounds
    simp only [roundedSize, granule] at holds ⊢
    omega

theorem wholeGranules_roundedSize (size : Nat) : WholeGranules (roundedSize size) := by
  obtain ⟨whole, holds⟩ := (isLeast_roundedSize size).1
  exact ⟨by omega, whole⟩

theorem WholeGranules.roundedSize_eq {size : Nat} (whole : WholeGranules size) :
    roundedSize size = size := by
  obtain ⟨positive, count, rfl⟩ := whole
  simp only [roundedSize, granule] at positive ⊢
  omega

theorem wholeGranules_of_alignSize {size aligned : Nat} (ran : alignSize size = .ok aligned) :
    WholeGranules aligned :=
  (alignSize_eq_ok_iff.mp ran).2 ▸ wholeGranules_roundedSize size

theorem WholeGranules.eq_of_alignSize {size aligned : Nat} (whole : WholeGranules size)
    (ran : alignSize size = .ok aligned) : aligned = size :=
  (alignSize_eq_ok_iff.mp ran).2.trans whole.roundedSize_eq

/-- The bytes that residents take together. -/
def extentOf : List Resident → Nat
  | [] => 0
  | resident :: rest => resident.size + extentOf rest

@[simp] theorem extentOf_nil : extentOf [] = 0 := rfl

@[simp] theorem extentOf_cons (resident : Resident) (rest : List Resident) :
    extentOf (resident :: rest) = resident.size + extentOf rest := rfl

@[simp] theorem extentOf_append (left right : List Resident) :
    extentOf (left ++ right) = extentOf left + extentOf right := by
  induction left with
  | nil => simp
  | cons resident rest ih => simp [ih, Nat.add_assoc]

theorem granule_dvd_extentOf {residents : List Resident}
    (whole : ∀ resident ∈ residents, WholeGranules resident.size) :
    granule ∣ extentOf residents := by
  induction residents with
  | nil => exact Nat.dvd_zero _
  | cons first rest ih =>
      exact Nat.dvd_add (whole first List.mem_cons_self).2
        (ih fun resident member => whole resident (List.mem_cons_of_mem _ member))

/-- Residents that lie one after the other from an offset on, without gaps. -/
def Packed : Nat → List Resident → Prop
  | _, [] => True
  | start, resident :: rest => resident.offset = start ∧ Packed resident.finish rest

theorem packed_append {start : Nat} {left right : List Resident} :
    Packed start (left ++ right) ↔
      Packed start left ∧ Packed (start + extentOf left) right := by
  induction left generalizing start with
  | nil => simp [Packed]
  | cons resident rest ih =>
      simp only [List.cons_append, Packed, ih, extentOf_cons, Resident.finish, and_assoc]
      constructor
      · intro parts
        obtain ⟨rfl, first, second⟩ := parts
        exact ⟨rfl, first, by rwa [← Nat.add_assoc]⟩
      · intro parts
        obtain ⟨rfl, first, second⟩ := parts
        exact ⟨rfl, first, by rwa [Nat.add_assoc]⟩

theorem extentOf_eq_sum (residents : List Resident) :
    extentOf residents = (residents.map Resident.size).sum := by
  induction residents with
  | nil => rfl
  | cons resident rest ih => rw [extentOf_cons, ih, List.map_cons, List.sum_cons]

/-- A resident starts where the ones before it end. -/
theorem Packed.offset_eq {start : Nat} {before rest : List Resident} {resident : Resident}
    (packed : Packed start (before ++ resident :: rest)) :
    resident.offset = start + extentOf before :=
  (packed_append.mp packed).2.1

theorem Packed.bounds {start : Nat} {residents : List Resident} (packed : Packed start residents)
    {resident : Resident} (member : resident ∈ residents) :
    start ≤ resident.offset ∧ resident.finish ≤ start + extentOf residents := by
  induction residents generalizing start with
  | nil => simp at member
  | cons first rest ih =>
      obtain ⟨placed, packed⟩ := packed
      rcases List.mem_cons.mp member with rfl | member
      · simp only [Resident.finish, extentOf_cons]
        omega
      · have bounds := ih packed member
        simp only [Resident.finish, extentOf_cons] at bounds ⊢
        omega

/-- Of two residents the earlier one ends where the later one starts, or before. -/
theorem Packed.pairwise {start : Nat} {residents : List Resident}
    (packed : Packed start residents) :
    residents.Pairwise fun earlier later => earlier.finish ≤ later.offset := by
  induction residents generalizing start with
  | nil => exact List.Pairwise.nil
  | cons first rest ih =>
      obtain ⟨_, packed⟩ := packed
      exact List.Pairwise.cons (fun later member => (packed.bounds member).1) (ih packed)

/-- Two residents do not overlap: one of them ends before the other one starts. -/
theorem Packed.apart {start : Nat} {residents : List Resident}
    (packed : Packed start residents) {first second : Resident} (member : first ∈ residents)
    (other : second ∈ residents) (different : first ≠ second) :
    first.finish ≤ second.offset ∨ second.finish ≤ first.offset := by
  have ordered : residents.Pairwise fun first second =>
      first.finish ≤ second.offset ∨ second.finish ≤ first.offset := packed.pairwise.imp .inl
  have symmetric : Std.Symm fun first second : Resident =>
      first.finish ≤ second.offset ∨ second.finish ≤ first.offset := ⟨fun _ _ => Or.symm⟩
  exact ordered.forall member other different

theorem Packed.granule_dvd_offset {residents : List Resident} (packed : Packed 0 residents)
    (whole : ∀ resident ∈ residents, WholeGranules resident.size) {resident : Resident}
    (member : resident ∈ residents) : granule ∣ resident.offset := by
  obtain ⟨before, rest, rfl⟩ := List.append_of_mem member
  rw [packed.offset_eq, Nat.zero_add]
  exact granule_dvd_extentOf fun earlier early => whole earlier (List.mem_append_left _ early)

namespace Arena

/-- An arena whose residents are packed from the base up to the frontier. -/
structure WellFormed (arena : Arena) : Prop where
  packed : Packed 0 arena.residents.toList
  used_eq : arena.used = extentOf arena.residents.toList
  used_le : arena.used ≤ arena.capacity
  whole : ∀ resident ∈ arena.residents.toList, WholeGranules resident.size

theorem mem_handles {arena : Arena} {handle : Handle} :
    handle ∈ arena.handles ↔ ∃ resident ∈ arena.residents.toList, resident.handle = handle := by
  simp [handles]

theorem mem_handles_of_mem {arena : Arena} {resident : Resident}
    (member : resident ∈ arena.residents.toList) : resident.handle ∈ arena.handles :=
  mem_handles.mpr ⟨resident, member, rfl⟩

theorem length_handles (arena : Arena) : arena.handles.length = arena.residents.size := by
  simp [handles]

theorem handles_eq_nil_iff {arena : Arena} : arena.handles = [] ↔ arena.residents = #[] := by
  rw [handles, List.map_eq_nil_iff, Array.toList_eq_nil_iff]

theorem wellFormed_empty (space : Space) (base capacity : Nat) :
    (empty space base capacity).WellFormed where
  packed := trivial
  used_eq := rfl
  used_le := Nat.zero_le capacity
  whole := by simp [empty]

@[simp] theorem toList_push (arena : Arena) (handle : Handle) (size : Nat) :
    (arena.push handle size).residents.toList =
      arena.residents.toList ++ [{ handle, offset := arena.used, size }] := by
  simp [push]

@[simp] theorem handles_push (arena : Arena) (handle : Handle) (size : Nat) :
    (arena.push handle size).handles = arena.handles ++ [handle] := by
  simp [handles]

@[simp] theorem base_push (arena : Arena) (handle : Handle) (size : Nat) :
    (arena.push handle size).base = arena.base := rfl

@[simp] theorem capacity_push (arena : Arena) (handle : Handle) (size : Nat) :
    (arena.push handle size).capacity = arena.capacity := rfl

@[simp] theorem used_push (arena : Arena) (handle : Handle) (size : Nat) :
    (arena.push handle size).used = arena.used + size := rfl

theorem WellFormed.push {arena : Arena} (wellFormed : arena.WellFormed) {size : Nat}
    (whole : WholeGranules size) (fits : arena.used + size ≤ arena.capacity)
    (handle : Handle) : (arena.push handle size).WellFormed where
  packed := by
    rw [toList_push, packed_append]
    refine ⟨wellFormed.packed, ?_⟩
    simp [Packed, wellFormed.used_eq]
  used_eq := by
    rw [toList_push, used_push, wellFormed.used_eq]
    simp
  used_le := fits
  whole := by
    intro resident member
    rw [toList_push, List.mem_append, List.mem_singleton] at member
    rcases member with member | rfl
    · exact wellFormed.whole resident member
    · exact whole

theorem WellFormed.widen {arena : Arena} (wellFormed : arena.WellFormed) {capacity : Nat}
    (wider : arena.capacity ≤ capacity) : { arena with capacity }.WellFormed where
  packed := wellFormed.packed
  used_eq := wellFormed.used_eq
  used_le := Nat.le_trans wellFormed.used_le wider
  whole := wellFormed.whole

theorem WellFormed.finish_le_used {arena : Arena} (wellFormed : arena.WellFormed)
    {resident : Resident} (member : resident ∈ arena.residents.toList) :
    resident.finish ≤ arena.used := by
  have bounds := wellFormed.packed.bounds member
  rw [wellFormed.used_eq]
  omega

theorem WellFormed.offset_lt_capacity {arena : Arena} (wellFormed : arena.WellFormed)
    {resident : Resident} (member : resident ∈ arena.residents.toList) :
    resident.offset < arena.capacity := by
  have ends := wellFormed.finish_le_used member
  have positive := (wellFormed.whole resident member).1
  have bounded := wellFormed.used_le
  simp only [Resident.finish] at ends
  omega

theorem room?_eq_some {arena : Arena} {size room : Nat}
    (ran : arena.room? size = .ok (some room)) :
    alignSize size = .ok room ∧ arena.used + room ≤ arena.capacity := by
  unfold room? free at ran
  simp only [Checked.bind_eq_ok_iff, Word.sub_eq_ok_iff] at ran
  obtain ⟨aligned, ran_align, left, ⟨ordered, rfl⟩, answered⟩ := ran
  split at answered
  · simp [Checked.pure_eq_ok_iff] at answered
  · rename_i fits
    simp only [Checked.pure_eq_ok_iff, Option.some.injEq] at answered
    subst answered
    exact ⟨ran_align, by omega⟩

theorem placement?_eq_some {arena : Arena} {size : Nat} {place : Placement}
    (ran : arena.placement? size = .ok (some place)) :
    alignSize size = .ok place.size ∧ arena.used + place.size ≤ arena.capacity ∧
      place.address = arena.base + arena.used := by
  unfold placement? at ran
  rw [Checked.bind_eq_ok_iff] at ran
  obtain ⟨room, room_eq, answered⟩ := ran
  cases room with
  | none => simp [Checked.pure_eq_ok_iff] at answered
  | some room =>
      simp only [frontier, Checked.bind_eq_ok_iff, Word.add_eq_ok_iff, Checked.pure_eq_ok_iff,
        Option.some.injEq] at answered
      obtain ⟨address, ⟨_, rfl⟩, rfl⟩ := answered
      have granted := room?_eq_some room_eq
      exact ⟨granted.1, granted.2, rfl⟩

theorem room?_eq_none {arena : Arena} {size : Nat} (ran : arena.room? size = .ok none) :
    ∃ aligned, alignSize size = .ok aligned ∧ arena.capacity < arena.used + aligned := by
  unfold room? free at ran
  simp only [Checked.bind_eq_ok_iff, Word.sub_eq_ok_iff] at ran
  obtain ⟨aligned, ran_align, left, ⟨ordered, rfl⟩, answered⟩ := ran
  split at answered
  · exact ⟨aligned, ran_align, by omega⟩
  · simp [Checked.pure_eq_ok_iff] at answered

theorem placement?_eq_none {arena : Arena} {size : Nat} (ran : arena.placement? size = .ok none) :
    ∃ aligned, alignSize size = .ok aligned ∧ arena.capacity < arena.used + aligned := by
  unfold placement? at ran
  rw [Checked.bind_eq_ok_iff] at ran
  obtain ⟨room, room_eq, answered⟩ := ran
  cases room with
  | none => exact room?_eq_none room_eq
  | some room =>
      simp only [Checked.bind_eq_ok_iff, Checked.pure_eq_ok_iff] at answered
      obtain ⟨_, _, answered⟩ := answered
      simp at answered

/-- What was granted room is not refused a place: rounding whole granules up once more
changes nothing. -/
theorem placement?_of_room? {arena : Arena} {size room : Nat} {answer : Option Placement}
    (granted : arena.room? size = .ok (some room)) (ran : arena.placement? room = .ok answer) :
    answer = some { address := arena.base + arena.used, size := room } := by
  obtain ⟨aligned, fits⟩ := room?_eq_some granted
  have whole := wholeGranules_of_alignSize aligned
  cases answer with
  | none =>
      obtain ⟨again, realigned, exceeds⟩ := placement?_eq_none ran
      rw [whole.eq_of_alignSize realigned] at exceeds
      omega
  | some place =>
      obtain ⟨realigned, _, address⟩ := placement?_eq_some ran
      rw [← address, ← whole.eq_of_alignSize realigned]

/-- Whatever the limit, what fits below it fits into the arena. -/
theorem fitsWithin_eq_true {arena : Arena} {size : Nat} {limit : Float}
    (ran : arena.fitsWithin size limit = .ok true) :
    ∃ aligned, alignSize size = .ok aligned ∧ arena.used + aligned ≤ arena.capacity := by
  unfold fitsWithin at ran
  simp only [Checked.bind_eq_ok_iff, Word.add_eq_ok_iff, Checked.pure_eq_ok_iff,
    decide_eq_true_eq] at ran
  obtain ⟨aligned, ran_align, filled, ⟨_, rfl⟩, fits⟩ := ran
  exact ⟨aligned, ran_align, Nat.le_trans fits (Nat.min_le_right _ _)⟩

end Arena

end Tenure
