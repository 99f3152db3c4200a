import Mathlib.Algebra.GroupWithZero.Nat
import Mathlib.Data.List.Nodup
import Mathlib.Data.List.Perm.Subperm
import Tenure.Handle
import Std.Data.TreeSet.Lemmas

/-!
# Handles and sets of handles

A set made from a list has exactly the members of the list. There are finitely many
handles, so lists of them without repeats are bounded.
-/

set_option autoImplicit false

namespace Tenure

/-- The handle of the first object in a slot. -/
def Handle.ofSlot (slot : UInt32) : Handle := { slot, epoch := 0 }

/-- Two handles for one slot differ in their epochs. -/
theorem Handle.epoch_ne {handle other : Handle} (slot : handle.slot = other.slot)
    (different : other ≠ handle) : handle.epoch ≠ other.epoch := by
  intro epoch
  cases handle
  cases other
  simp_all

/-- Counting over some handles, each once, is at most counting more over all of those that
they are among. -/
theorem Handle.sum_le_of_subset {count bound : Handle → Nat}
    (below : ∀ handle, count handle ≤ bound handle) {handles others : List Handle}
    (distinct : handles.Nodup) (contained : handles ⊆ others) :
    (handles.map count).sum ≤ (others.map bound).sum := by
  induction handles generalizing others with
  | nil => exact Nat.zero_le _
  | cons handle rest ih =>
      obtain ⟨unlisted, distinct⟩ := List.nodup_cons.mp distinct
      have moved := List.perm_cons_erase (contained List.mem_cons_self)
      have later : rest ⊆ others.erase handle := by
        intro other member
        have different : other ≠ handle := fun same => unlisted (same ▸ member)
        exact (List.mem_erase_of_ne different).mpr (contained (List.mem_cons_of_mem _ member))
      rw [(moved.map bound).sum_nat, List.map_cons, List.map_cons, List.sum_cons, List.sum_cons]
      exact Nat.add_le_add (below handle) (ih distinct later)

/-- The place of a handle in the order of all handles. -/
private def Handle.rank (handle : Handle) : Nat :=
  handle.slot.toNat * UInt32.size + handle.epoch.toNat

theorem Handle.length_le_count {handles : List Handle} (distinct : handles.Nodup) :
    handles.length ≤ Handle.count := by
  have injective : ∀ first second : Handle, first.rank = second.rank → first = second := by
    intro first second same
    have firstEpoch := first.epoch.toNat_lt
    have secondEpoch := second.epoch.toNat_lt
    simp only [rank, UInt32.size] at same
    have slot : first.slot = second.slot := UInt32.toNat_inj.mp (by omega)
    have epoch : first.epoch = second.epoch := UInt32.toNat_inj.mp (by omega)
    cases first
    cases second
    simp_all
  have ranked : (handles.map rank).Nodup := distinct.map injective
  have below : handles.map rank ⊆ List.range Handle.count := by
    intro rank member
    obtain ⟨handle, _, rfl⟩ := List.mem_map.mp member
    have slot := handle.slot.toNat_lt
    have epoch := handle.epoch.toNat_lt
    rw [List.mem_range]
    simp only [Handle.rank, UInt32.size, Handle.count]
    omega
  have shorter := (ranked.subperm below).length_le
  rwa [List.length_map, List.length_range] at shorter

namespace HandleSet

@[simp] theorem contains_of {handles : List Handle} {handle : Handle} :
    (HandleSet.of handles).contains handle = true ↔ handle ∈ handles := by
  rw [HandleSet.of, Std.TreeSet.contains_ofList, List.contains_iff_mem]

theorem not_contains_of {handles : List Handle} {handle : Handle} :
    (!(HandleSet.of handles).contains handle) = true ↔ handle ∉ handles := by
  rw [Bool.not_eq_true', ← Bool.not_eq_true, contains_of]

theorem mem_toList {handles : HandleSet} {handle : Handle} :
    handle ∈ handles.toList ↔ handles.contains handle = true := by
  rw [Std.TreeSet.mem_toList, Std.TreeSet.mem_iff_contains]

theorem mem_toList_of {handles : List Handle} {handle : Handle} :
    handle ∈ (HandleSet.of handles).toList ↔ handle ∈ handles := by
  rw [mem_toList, contains_of]

theorem nodup_toList (handles : HandleSet) : handles.toList.Nodup := by
  refine handles.distinct_toList.imp fun different same => different ?_
  rw [same]
  exact Std.LawfulEqOrd.compare_eq_iff_eq.mpr rfl

/-- Handles without repeats that are exactly the members of a set list it. -/
theorem perm_toList {handles : HandleSet} {listed : List Handle} (distinct : listed.Nodup)
    (members : ∀ handle, handle ∈ listed ↔ handles.contains handle = true) :
    listed.Perm handles.toList := by
  refine (List.perm_ext_iff_of_nodup distinct handles.nodup_toList).mpr fun handle => ?_
  rw [members, mem_toList]

end HandleSet

end Tenure
