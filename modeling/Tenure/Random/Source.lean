/-!
# Sources of random choices

What chooses at random is a state that is replaced by the next one with every
choice. Nothing is assumed about the choices but that a pick is in its range.
-/

set_option autoImplicit false

namespace Tenure

/-- A state that makes random choices. -/
class RandomSource (Source : Type) where
  coin : Source → (probability : Float) → Bool × Source
  pick : Source → (count : Nat) → 0 < count → Fin count × Source

end Tenure
