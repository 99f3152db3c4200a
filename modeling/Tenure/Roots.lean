import Tenure.Handle

/-!
# Providers of roots

The running program knows the objects that it reaches without looking into others. It is
asked for them once in every cycle, and only then.
-/

set_option autoImplicit false

namespace Tenure

/-- A state that knows the roots. -/
class RootProvider (Roots : Type) where
  /-- The roots at this moment; they may repeat and may be stale. -/
  current : Roots → List Handle

instance : RootProvider (List Handle) where
  current roots := roots

instance : RootProvider HandleSet where
  current roots := roots.toList

end Tenure
