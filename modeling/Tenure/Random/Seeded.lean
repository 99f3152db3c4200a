import Tenure.Random.ChaCha
import Tenure.Random.Source

/-!
# Seeded choices

All choices follow from one number, the seed. It is stretched to a key, and the
key to a stream of words that are drawn one after another.
-/

set_option autoImplicit false

namespace Tenure

/-- A stream of words at some position: the words left of the current block and the
number of the block after it. -/
structure SeededRandom where
  key : ChaCha.Key
  next : UInt64
  words : List UInt32
deriving Repr

namespace SeededRandom

def stretch (state : UInt64) : UInt64 := state * 6364136223846793005 + 11634580027462260723

/-- The word that stands for a state of that generator: some of its upper bits, turned
to the right by its uppermost. -/
def keyWord (state : UInt64) : UInt32 :=
  let bits := (((state >>> 18) ^^^ state) >>> 27).toUInt32
  let turn := (state >>> 59).toUInt32
  (bits >>> turn) ||| (bits <<< ((32 - turn) % 32))

def stretched (seed : UInt64) (steps : Nat) : UInt64 := Nat.repeat stretch steps seed

def keyOf (seed : UInt64) : ChaCha.Key :=
  Vector.ofFn fun index => keyWord (stretched seed (index.val + 1))

def ofSeed (seed : UInt64) : SeededRandom := { key := keyOf seed, next := 0, words := [] }

def draw32 (random : SeededRandom) : UInt32 × SeededRandom :=
  match random.words with
  | word :: words => (word, { random with words })
  | [] =>
    let block := ChaCha.block random.key random.next
    (block[0],
      { random with next := random.next + 1, words := block.toList.tail })

def draw64 (random : SeededRandom) : UInt64 × SeededRandom :=
  let (low, random) := random.draw32
  let (high, random) := random.draw32
  (low.toUInt64 ||| (high.toUInt64 <<< 32), random)

/-- True with a probability: the next 64 bits, read as a fraction, lie below it. One
is certain and takes no draw. -/
def coin (random : SeededRandom) (probability : Float) : Bool × SeededRandom :=
  if probability == 1.0 then (true, random)
  else
    let bound := (probability * 18446744073709551616.0).toUInt64
    let (bits, random) := random.draw64
    (bits < bound, random)

def drawLimit (wide : Bool) : Nat := if wide then 0x10000000000000000 else 0x100000000

def draw (random : SeededRandom) (wide : Bool) : Nat × SeededRandom :=
  if wide then
    let (word, random) := random.draw64
    (word.toNat, random)
  else
    let (word, random) := random.draw32
    (word.toNat, random)

def needsWide (count : Nat) : Bool := drawLimit false < count

/-- Chooses a number below `count`: a draw is read as a fraction and multiplied by
`count`. Where the rest may be carried over, a second draw decides. -/
def choose (random : SeededRandom) (count : Nat) : Nat × SeededRandom :=
  let wide := needsWide count
  let limit := drawLimit wide
  let (first, random) := random.draw wide
  let high := first * count / limit
  let low := first * count % limit
  if low + count > limit then
    let (more, random) := random.draw wide
    if low + more * count / limit < limit then (high, random) else (high + 1, random)
  else (high, random)

theorem drawLimit_pos (wide : Bool) : 0 < drawLimit wide := by
  cases wide <;> decide

theorem draw_lt (random : SeededRandom) (wide : Bool) :
    (random.draw wide).1 < drawLimit wide := by
  cases wide with
  | false => exact UInt32.toNat_lt _
  | true => exact UInt64.toNat_lt _

/-- A fraction below one times `count`, with what is carried over, stays below `count`. -/
theorem carried_lt {first more count bound : Nat} (drawn : first < bound) (others : more < bound)
    (positive : 0 < count) (carry : bound ≤ first * count % bound + more * count / bound) :
    first * count / bound + 1 < count := by
  have boundPositive : 0 < bound := Nat.zero_lt_of_lt drawn
  have moreBelow : more * count / bound < count := by
    rw [Nat.div_lt_iff_lt_mul boundPositive, Nat.mul_comm count]
    exact Nat.mul_lt_mul_of_pos_right others positive
  have split : bound * (first * count / bound) + first * count % bound = first * count :=
    Nat.div_add_mod _ _
  have drawBelow : first * count + count ≤ bound * count := by
    rw [← Nat.succ_mul]
    exact Nat.mul_le_mul_right count drawn
  have strict : bound * (first * count / bound + 1) < bound * count := by
    rw [Nat.mul_add, Nat.mul_one]
    omega
  exact Nat.lt_of_mul_lt_mul_left strict

theorem choose_lt (random : SeededRandom) {count : Nat} (positive : 0 < count) :
    (random.choose count).1 < count := by
  have drawn := random.draw_lt (needsWide count)
  have plain :
      (random.draw (needsWide count)).1 * count / drawLimit (needsWide count) < count := by
    rw [Nat.div_lt_iff_lt_mul (drawLimit_pos _), Nat.mul_comm count]
    exact Nat.mul_lt_mul_of_pos_right drawn positive
  unfold choose
  dsimp only
  split
  · split
    · exact plain
    · rename_i carry
      exact carried_lt drawn (draw_lt _ _) positive (Nat.le_of_not_lt carry)
  · exact plain

instance : RandomSource SeededRandom where
  coin := coin
  pick random count positive :=
    let chosen := random.choose count
    (⟨chosen.1, random.choose_lt positive⟩, chosen.2)

end SeededRandom

end Tenure
