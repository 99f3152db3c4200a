import Std.Data.TreeSet

/-!
# Handles of managed objects

A handle names an object for its whole life. Its slot selects an entry of the
directory of objects and its epoch counts how often that slot was reclaimed, so
a handle that outlives its object is recognised instead of naming another one.
-/

set_option autoImplicit false

namespace Tenure

structure Handle where
  slot : UInt32
  epoch : UInt32
deriving DecidableEq, Repr

namespace Handle

instance : Ord Handle := ⟨compareLex (compareOn Handle.slot) (compareOn Handle.epoch)⟩

instance : Std.TransOrd Handle :=
  inferInstanceAs (Std.TransCmp (compareLex (compareOn Handle.slot) (compareOn Handle.epoch)))

instance : Std.LawfulEqOrd Handle where
  eq_of_compare {left right} same := by
    have parts : (compareLex (compareOn Handle.slot) (compareOn Handle.epoch)) left right = .eq :=
      same
    simp only [compareLex, compareOn, Ordering.then_eq_eq, Std.LawfulEqOrd.compare_eq_iff_eq]
      at parts
    cases left
    cases right
    simp_all

def count : Nat := 0x10000000000000000

def render (handle : Handle) : String :=
  s!"ObjectId({handle.slot}/{handle.epoch})"

end Handle

abbrev HandleSet : Type := Std.TreeSet Handle

def HandleSet.of (handles : List Handle) : HandleSet := Std.TreeSet.ofList handles

end Tenure
