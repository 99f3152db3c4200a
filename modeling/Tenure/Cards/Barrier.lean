import Tenure.Cards

/-!
# The write barrier

Every store of a reference passes the barrier first. It dirties the card of an
old object that is about to reference a young one, which is what lets a minor
cycle leave the rest of the old space alone.
-/

set_option autoImplicit false

namespace Tenure

/-- Counters of the barrier; they wrap around. -/
structure BarrierCounts where
  invocations : UInt64
  cardsDirtied : UInt64
deriving DecidableEq, Repr

def BarrierCounts.zero : BarrierCounts := { invocations := 0, cardsDirtied := 0 }

def createsOldToYoung (holder : Generation) (value : Option Generation) : Bool :=
  holder = .old && value.any Generation.isYoung

/-- Passes a store into an object of generation `holder` at `address`; `value` is
the generation of the new referent, none for a null reference. Answers whether a
card was dirtied. -/
def CardTable.onStore (table : CardTable) (counts : BarrierCounts) (holder : Generation)
    (address : Nat) (value : Option Generation) :
    Checked (Bool × CardTable × BarrierCounts) := do
  let counts := { counts with invocations := counts.invocations + 1 }
  if createsOldToYoung holder value then
    let (dirtied, table) ← table.mark address
    if dirtied then
      return (true, table, { counts with cardsDirtied := counts.cardsDirtied + 1 })
    else return (false, table, counts)
  else return (false, table, counts)

end Tenure
