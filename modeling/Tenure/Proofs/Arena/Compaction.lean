import Mathlib.Data.List.Nodup
import Tenure.Proofs.Arena.Layout

/-!
# The effect of sliding

A slide is fixed by the residents that stay: each of them gets the offset at which
the ones before it end. The moves it reports are those of the residents whose
offset changed.
-/

set_option autoImplicit false

namespace Tenure

/-- Residents with the offsets that they get when they are moved together from an
offset on. -/
def shifted : Nat → List Resident → List (Resident × Nat)
  | _, [] => []
  | start, resident :: rest => (resident, start) :: shifted (start + resident.size) rest

def replaced (shift : Resident × Nat) : Resident := { shift.1 with offset := shift.2 }

def relocationOf (base : Nat) (shift : Resident × Nat) : Relocation :=
  { handle := shift.1.handle, source := base + shift.1.offset, target := base + shift.2 }

def relocations (base : Nat) (shifts : List (Resident × Nat)) : List Relocation :=
  (shifts.filter fun shift => shift.2 ≠ shift.1.offset).map (relocationOf base)

@[simp] theorem replaced_handle (shift : Resident × Nat) :
    (replaced shift).handle = shift.1.handle := rfl

@[simp] theorem replaced_size (shift : Resident × Nat) :
    (replaced shift).size = shift.1.size := rfl

@[simp] theorem replaced_offset (shift : Resident × Nat) :
    (replaced shift).offset = shift.2 := rfl

@[simp] theorem relocations_nil (base : Nat) : relocations base [] = [] := rfl

@[simp] theorem map_fst_shifted (start : Nat) (residents : List Resident) :
    (shifted start residents).map Prod.fst = residents := by
  induction residents generalizing start with
  | nil => rfl
  | cons resident rest ih => simp [shifted, ih]

theorem mem_of_mem_shifted {start : Nat} {residents : List Resident} {shift : Resident × Nat}
    (member : shift ∈ shifted start residents) : shift.1 ∈ residents := by
  rw [← map_fst_shifted start residents]
  exact List.mem_map_of_mem member

@[simp] theorem map_handle_replaced (start : Nat) (residents : List Resident) :
    ((shifted start residents).map replaced).map Resident.handle =
      residents.map Resident.handle := by
  induction residents generalizing start with
  | nil => rfl
  | cons resident rest ih =>
      simp only [shifted, List.map_cons, replaced_handle, ih]

theorem extentOf_replaced (start : Nat) (residents : List Resident) :
    extentOf ((shifted start residents).map replaced) = extentOf residents := by
  induction residents generalizing start with
  | nil => rfl
  | cons resident rest ih =>
      simp only [shifted, List.map_cons, extentOf_cons, replaced_size, ih]

theorem packed_replaced (start : Nat) (residents : List Resident) :
    Packed start ((shifted start residents).map replaced) := by
  induction residents generalizing start with
  | nil => trivial
  | cons resident rest ih => exact ⟨rfl, ih _⟩

theorem extentOf_filter_le (keep : Resident → Bool) (residents : List Resident) :
    extentOf (residents.filter keep) ≤ extentOf residents := by
  induction residents with
  | nil => simp
  | cons resident rest ih =>
      rw [List.filter_cons]
      split
      · simp only [extentOf_cons]
        omega
      · simp only [extentOf_cons]
        omega

/-- Residents that do not overlap only move down. -/
theorem shift_le {start : Nat} {residents : List Resident}
    (ordered : residents.Pairwise fun earlier later => earlier.finish ≤ later.offset)
    (above : ∀ resident ∈ residents, start ≤ resident.offset) {shift : Resident × Nat}
    (member : shift ∈ shifted start residents) : shift.2 ≤ shift.1.offset := by
  induction residents generalizing start with
  | nil => simp [shifted] at member
  | cons resident rest ih =>
      obtain ⟨later, ordered⟩ := List.pairwise_cons.mp ordered
      have first := above resident List.mem_cons_self
      rcases List.mem_cons.mp member with rfl | member
      · exact first
      · refine ih ordered (fun other present => ?_) member
        have separate := later other present
        simp only [Resident.finish] at separate
        omega

theorem nodup_shifted {start : Nat} {residents : List Resident}
    (distinct : (residents.map Resident.handle).Nodup) :
    ((shifted start residents).map fun shift => shift.1.handle).Nodup := by
  have same := congrArg (List.map Resident.handle) (map_fst_shifted start residents)
  rw [List.map_map] at same
  exact same ▸ distinct

theorem nodup_relocations {base start : Nat} {residents : List Resident}
    (distinct : (residents.map Resident.handle).Nodup) :
    ((relocations base (shifted start residents)).map Relocation.handle).Nodup := by
  have shape : (relocations base (shifted start residents)).map Relocation.handle =
      ((shifted start residents).filter fun shift => shift.2 ≠ shift.1.offset).map
        fun shift => shift.1.handle := by
    simp [relocations, relocationOf, Function.comp_def]
  rw [shape]
  exact (List.filter_sublist.map _).nodup (nodup_shifted distinct)

namespace Arena

/-- The residents that a slide keeps, with their new offsets. -/
def shifts (arena : Arena) (keep : Handle → Bool) : List (Resident × Nat) :=
  shifted 0 (arena.residents.toList.filter fun resident => keep resident.handle)

def slid (arena : Arena) (keep : Handle → Bool) : Arena :=
  { arena with
    used := extentOf (arena.residents.toList.filter fun resident => keep resident.handle)
    residents := ((arena.shifts keep).map replaced).toArray }

theorem take_eq_ok {base : Nat} {keep : Handle → Bool} {slide after : Slide}
    {resident : Resident} (ran : Slide.take base keep slide resident = .ok after) :
    after.cursor = slide.cursor + extentOf ([resident].filter fun other => keep other.handle) ∧
      after.kept.toList = slide.kept.toList ++
        (shifted slide.cursor ([resident].filter fun other => keep other.handle)).map replaced ∧
      after.moved.toList = slide.moved.toList ++ relocations base
        (shifted slide.cursor ([resident].filter fun other => keep other.handle)) := by
  unfold Slide.take at ran
  by_cases kept : keep resident.handle = true
  · simp only [kept, ↓reduceIte] at ran
    by_cases still : slide.cursor = resident.offset
    · simp only [still, ↓reduceIte, Checked.bind_eq_ok_iff, Checked.pure_eq_ok_iff,
        Word.add_eq_ok_iff] at ran
      obtain ⟨moved, rfl, cursor, ⟨_, rfl⟩, rfl⟩ := ran
      simp [kept, still, shifted, relocations, replaced]
    · simp only [still, ↓reduceIte, Checked.bind_eq_ok_iff, Checked.pure_eq_ok_iff,
        Word.add_eq_ok_iff] at ran
      obtain ⟨source, ⟨_, rfl⟩, target, ⟨_, rfl⟩, moved, rfl, cursor, ⟨_, rfl⟩, rfl⟩ := ran
      simp [kept, still, shifted, relocations, relocationOf, replaced]
  · simp only [kept, Bool.false_eq_true, ↓reduceIte, Checked.pure_eq_ok_iff] at ran
    subst ran
    simp [kept, shifted]

private theorem shifted_append (start : Nat) (left right : List Resident) :
    shifted start (left ++ right) =
      shifted start left ++ shifted (start + extentOf left) right := by
  induction left generalizing start with
  | nil => simp [shifted]
  | cons resident rest ih => simp [shifted, ih, Nat.add_assoc]

private theorem relocations_append (base : Nat) (left right : List (Resident × Nat)) :
    relocations base (left ++ right) = relocations base left ++ relocations base right := by
  simp [relocations]

/-- A slide keeps what it has to keep and reports the moves. -/
theorem slide_eq_ok {arena after : Arena} {keep : Handle → Bool} {moves : List Relocation}
    (ran : arena.slide keep = .ok (moves, after)) :
    moves = relocations arena.base (arena.shifts keep) ∧ after = arena.slid keep := by
  unfold slide at ran
  rw [Checked.bind_eq_ok_iff] at ran
  obtain ⟨done, folded, answered⟩ := ran
  rw [← Array.foldlM_toList] at folded
  have reached := Checked.foldlM_induction (fun seen (slide : Slide) =>
      slide.cursor = extentOf (seen.filter fun resident => keep resident.handle) ∧
        slide.kept.toList =
          (shifted 0 (seen.filter fun resident => keep resident.handle)).map replaced ∧
        slide.moved.toList = relocations arena.base
          (shifted 0 (seen.filter fun resident => keep resident.handle)))
    folded ⟨rfl, rfl, rfl⟩ (by
      intro seen resident rest slide after _ holds stepped
      obtain ⟨cursor, kept, moved⟩ := holds
      obtain ⟨cursor_eq, kept_eq, moved_eq⟩ := take_eq_ok stepped
      rw [cursor] at cursor_eq kept_eq moved_eq
      rw [kept] at kept_eq
      rw [moved] at moved_eq
      refine ⟨?_, ?_, ?_⟩
      · rw [cursor_eq, List.filter_append, extentOf_append]
      · rw [kept_eq, List.filter_append, shifted_append, List.map_append, Nat.zero_add]
      · rw [moved_eq, List.filter_append, shifted_append, relocations_append, Nat.zero_add])
  obtain ⟨cursor, kept, moved⟩ := reached
  simp only [Checked.pure_eq_ok_iff, Prod.mk.injEq] at answered
  obtain ⟨rfl, rfl⟩ := answered
  refine ⟨moved, ?_⟩
  rw [slid, shifts, ← cursor, ← kept]

@[simp] theorem base_slid (arena : Arena) (keep : Handle → Bool) :
    (arena.slid keep).base = arena.base := rfl

@[simp] theorem capacity_slid (arena : Arena) (keep : Handle → Bool) :
    (arena.slid keep).capacity = arena.capacity := rfl

@[simp] theorem toList_slid (arena : Arena) (keep : Handle → Bool) :
    (arena.slid keep).residents.toList = (arena.shifts keep).map replaced := by
  simp [slid]

theorem handles_slid (arena : Arena) (keep : Handle → Bool) :
    (arena.slid keep).handles = arena.handles.filter keep := by
  rw [handles, toList_slid, shifts, map_handle_replaced, handles, List.filter_map]
  rfl

theorem mem_of_mem_shifts {arena : Arena} {keep : Handle → Bool} {shift : Resident × Nat}
    (member : shift ∈ arena.shifts keep) :
    shift.1 ∈ arena.residents.toList ∧ keep shift.1.handle = true :=
  List.mem_filter.mp (mem_of_mem_shifted member)

theorem exists_shift {arena : Arena} {keep : Handle → Bool} {resident : Resident}
    (member : resident ∈ arena.residents.toList) (kept : keep resident.handle = true) :
    ∃ offset, (resident, offset) ∈ arena.shifts keep := by
  have present : resident ∈ (arena.shifts keep).map Prod.fst := by
    rw [shifts, map_fst_shifted]
    exact List.mem_filter.mpr ⟨member, kept⟩
  obtain ⟨⟨_, offset⟩, shifted, rfl⟩ := List.mem_map.mp present
  exact ⟨offset, shifted⟩

theorem shift_eq_of_handle_eq {arena : Arena} {keep : Handle → Bool}
    (distinct : arena.handles.Nodup) {shift other : Resident × Nat}
    (member : shift ∈ arena.shifts keep) (otherMember : other ∈ arena.shifts keep)
    (same : shift.1.handle = other.1.handle) : shift = other :=
  List.inj_on_of_nodup_map (nodup_shifted ((List.filter_sublist.map _).nodup distinct))
    member otherMember same

theorem WellFormed.shift_le {arena : Arena} (wellFormed : arena.WellFormed)
    {keep : Handle → Bool} {shift : Resident × Nat} (member : shift ∈ arena.shifts keep) :
    shift.2 ≤ shift.1.offset :=
  Tenure.shift_le (wellFormed.packed.pairwise.sublist List.filter_sublist)
    (fun _ _ => Nat.zero_le _) member

theorem WellFormed.slid {arena : Arena} (wellFormed : arena.WellFormed) (keep : Handle → Bool) :
    (arena.slid keep).WellFormed where
  packed := by
    rw [toList_slid]
    exact packed_replaced 0 _
  used_eq := by
    rw [toList_slid, shifts, extentOf_replaced]
    rfl
  used_le := by
    have smaller := extentOf_filter_le (fun resident => keep resident.handle)
      arena.residents.toList
    have bounded := wellFormed.used_le
    rw [wellFormed.used_eq] at bounded
    exact Nat.le_trans smaller bounded
  whole := by
    intro resident member
    rw [toList_slid] at member
    obtain ⟨shift, selected, rfl⟩ := List.mem_map.mp member
    exact wellFormed.whole shift.1 (mem_of_mem_shifts selected).1

end Arena

end Tenure
