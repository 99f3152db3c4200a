import Tenure.Random.Source
import Tenure.Roots
import Tenure.Word

/-!
# Windows of roots

The roots of a simulated program are the objects it kept last. A full window drops
its oldest root for every new one.
-/

set_option autoImplicit false

namespace Tenure

/-- The last of the objects that were kept, at most `capacity` of them. -/
structure RootWindow where
  capacity : Nat
  kept : Array Handle
  dropped : Nat
  dropped_le : dropped ≤ kept.size

namespace RootWindow

def rootWidth : Nat := 8

/-- A window without roots, which has room for all that it may hold. -/
def create (capacity : Nat) : Checked RootWindow := do
  Word.checkTable capacity rootWidth
  return { capacity, kept := #[], dropped := 0, dropped_le := Nat.le_refl _ }

def size (window : RootWindow) : Nat := window.kept.size - window.dropped

def roots (window : RootWindow) : List Handle := window.kept.toList.drop window.dropped

instance : RootProvider RootWindow where
  current := roots

/-- Adds a root; a window without capacity keeps none. -/
def push (window : RootWindow) (handle : Handle) : RootWindow :=
  if window.capacity = 0 then window
  else if window.size = window.capacity then
    { window with
      kept := window.kept.push handle
      dropped := window.dropped + 1
      dropped_le := by
        rw [Array.size_push]
        exact Nat.succ_le_succ window.dropped_le }
  else
    { window with
      kept := window.kept.push handle
      dropped_le := by
        rw [Array.size_push]
        exact Nat.le_succ_of_le window.dropped_le }

def get (window : RootWindow) (index : Fin window.size) : Handle :=
  have inside : window.dropped + index.val < window.kept.size :=
    Nat.add_lt_of_lt_sub' index.isLt
  window.kept[window.dropped + index.val]

def pick? {Source : Type} [RandomSource Source] (window : RootWindow) (random : Source) :
    Option Handle × Source :=
  if occupied : 0 < window.size then
    let (index, random) := RandomSource.pick random window.size occupied
    (some (window.get index), random)
  else (none, random)

@[simp] theorem length_roots (window : RootWindow) : window.roots.length = window.size := by
  simp [roots, size]

theorem get_mem_roots (window : RootWindow) (index : Fin window.size) :
    window.get index ∈ window.roots := by
  have inside : index.val < window.roots.length := by simp [index.isLt]
  have same : window.roots[index.val] = window.get index := by simp [roots, get]
  rw [← same]
  exact List.getElem_mem inside

/-- A full window loses its oldest root to a new one, and any other only gains it. -/
theorem roots_push (window : RootWindow) (handle : Handle) :
    (window.push handle).roots =
      if window.capacity = 0 then window.roots
      else if window.size = window.capacity then window.roots.tail ++ [handle]
      else window.roots ++ [handle] := by
  have bounded : window.dropped ≤ window.kept.toList.length := window.dropped_le
  unfold push
  split
  · rfl
  · split
    · rename_i nonempty full
      have shorter : window.dropped + 1 ≤ window.kept.toList.length := by
        have count : window.kept.size - window.dropped = window.capacity := full
        have length : window.kept.toList.length = window.kept.size := rfl
        omega
      simp only [roots, Array.toList_push, List.drop_append_of_le_length shorter,
        List.tail_drop]
    · simp only [roots, Array.toList_push, List.drop_append_of_le_length bounded]

theorem mem_roots_of_mem_push {window : RootWindow} {handle root : Handle}
    (member : root ∈ (window.push handle).roots) : root ∈ window.roots ∨ root = handle := by
  rw [roots_push] at member
  split at member
  · exact .inl member
  · split at member
    · rcases List.mem_append.1 member with older | latest
      · exact .inl (List.mem_of_mem_tail older)
      · exact .inr (List.mem_singleton.1 latest)
    · rcases List.mem_append.1 member with older | latest
      · exact .inl older
      · exact .inr (List.mem_singleton.1 latest)

theorem mem_roots_of_pick? {Source : Type} [RandomSource Source] {window : RootWindow}
    {random rest : Source} {handle : Handle}
    (picked : window.pick? random = (some handle, rest)) : handle ∈ window.roots := by
  unfold pick? at picked
  split at picked
  · simp only [Prod.mk.injEq, Option.some.injEq] at picked
    rw [← picked.1]
    exact window.get_mem_roots _
  · simp at picked

end RootWindow

end Tenure
