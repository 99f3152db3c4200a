/-!
# Generations and spaces

An object belongs to one of three generations and lies in one of four spaces.
The young generations are eden and survivor; promotion only ever moves upward.
-/

set_option autoImplicit false

namespace Tenure

def maxAge : Nat := 15

/-- How far an object has come on its way into the old generation. -/
inductive Generation where
  | eden
  | survivor
  | old
deriving DecidableEq, Repr

namespace Generation

def rank : Generation → Nat
  | .eden => 0
  | .survivor => 1
  | .old => 2

instance : LE Generation := ⟨fun lower upper => lower.rank ≤ upper.rank⟩

instance (lower upper : Generation) : Decidable (lower ≤ upper) :=
  inferInstanceAs (Decidable (lower.rank ≤ upper.rank))

instance : Ord Generation := ⟨compareOn rank⟩

/-- Only minor cycles reclaim young objects without looking at the rest. -/
def isYoung : Generation → Bool
  | .eden => true
  | .survivor => true
  | .old => false

def name : Generation → String
  | .eden => "Eden"
  | .survivor => "Survivor"
  | .old => "Old"

def all : List Generation := [.eden, .survivor, .old]

end Generation

/-- The two survivor spaces take turns in holding the survivors. -/
inductive Side where
  | a
  | b
deriving DecidableEq, Repr

def Side.other : Side → Side
  | .a => .b
  | .b => .a

/-- The four spaces of the heap. -/
inductive Space where
  | eden
  | survivor (side : Side)
  | old
deriving DecidableEq, Repr

namespace Space

/-- The other survivor space; eden and old stand alone. -/
def sibling : Space → Space
  | .survivor side => .survivor side.other
  | space => space

def generation : Space → Generation
  | .eden => .eden
  | .survivor _ => .survivor
  | .old => .old

def name : Space → String
  | .eden => "Eden"
  | .survivor .a => "SurvivorA"
  | .survivor .b => "SurvivorB"
  | .old => "Old"

def all : List Space := [.eden, .survivor .a, .survivor .b, .old]

end Space

end Tenure
