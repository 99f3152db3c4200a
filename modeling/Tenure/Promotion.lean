import Tenure.Heap.Basic

/-!
# Promotion policies

After every minor cycle a policy may suggest another promotion threshold. The heap
accepts or refuses the suggestion; it never tunes itself.
-/

set_option autoImplicit false

namespace Tenure

/-- A state that suggests promotion thresholds. -/
class PromotionPolicy (Policy : Type) where
  /-- The name of the policy in reports. -/
  name : Policy → String
  /-- The threshold for the next minor cycle, or none to keep the current one. -/
  next : Policy → (current : Nat) → Survival → Option Nat × Policy

structure FixedPromotion where
deriving DecidableEq, Repr

instance : PromotionPolicy FixedPromotion where
  name _ := "fixed"
  next policy _ _ := (none, policy)

/-- Follows the survival rate. Where most young objects survive, copying them again
and again is wasted, so the threshold falls by one; where almost none survive it
rises by one. Small populations are ignored. -/
structure AdaptivePromotion where
  /-- The threshold falls at this rate or above. -/
  highWater : Float := 0.5
  /-- The threshold rises at this rate or below. -/
  lowWater : Float := 0.1
  /-- The least number of young objects that counts. -/
  minSample : Nat := 16
  /-- The threshold does not fall below this one. -/
  minThreshold : Nat := Tenure.minThreshold
  /-- The threshold does not rise above this one. -/
  maxThreshold : Nat := maxAge

namespace AdaptivePromotion

/-- Thresholds are bytes; a rising one stays at the greatest. -/
def greatestThreshold : Nat := 255

def wanted (policy : AdaptivePromotion) (current : Nat) (rate : Float) : Nat :=
  if rate ≥ policy.highWater then max (current - 1) policy.minThreshold
  else if rate ≤ policy.lowWater then
    min (min (current + 1) greatestThreshold) policy.maxThreshold
  else current

def suggest (policy : AdaptivePromotion) (current : Nat) (survival : Survival) : Option Nat :=
  if survival.youngBefore < policy.minSample then none
  else
    let wanted := policy.wanted current survival.rate
    if wanted = current then none else some wanted

instance : PromotionPolicy AdaptivePromotion where
  name _ := "adaptive"
  next policy current survival := (policy.suggest current survival, policy)

end AdaptivePromotion

/-- Suggests listed values one after another, and nothing after the last. -/
structure ListedPromotion where
  values : List (Option Nat)
deriving DecidableEq, Repr

instance : PromotionPolicy ListedPromotion where
  name _ := "script"
  next policy _ _ := (policy.values.head?.join, { values := policy.values.tail })

end Tenure
