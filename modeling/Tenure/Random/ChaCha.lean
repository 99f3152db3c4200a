/-!
# Key streams

A key of eight words is stretched to an endless stream of words, block by block.
A block is made from its number alone: the key, the number and four constants are
mixed in twelve rounds, and what they started from is added to the outcome.
-/

set_option autoImplicit false

namespace Tenure.ChaCha

abbrev Block : Type := Vector UInt32 16

abbrev Key : Type := Vector UInt32 8

def turnLeft (word : UInt32) (bits : UInt32) : UInt32 :=
  (word <<< bits) ||| (word >>> (32 - bits))

/-- Adds `source` to `sum` and turns the difference of `sum` and `turned`. -/
def mix (block : Block) (sum source turned : Fin 16) (bits : UInt32) : Block :=
  let block := block.set sum (block[sum] + block[source])
  block.set turned (turnLeft (block[turned] ^^^ block[sum]) bits)

def quarterRound (block : Block) (a b c d : Fin 16) : Block :=
  let block := mix block a b d 16
  let block := mix block c d b 12
  let block := mix block a b d 8
  mix block c d b 7

def doubleRound (block : Block) : Block :=
  let block := quarterRound block 0 4 8 12
  let block := quarterRound block 1 5 9 13
  let block := quarterRound block 2 6 10 14
  let block := quarterRound block 3 7 11 15
  let block := quarterRound block 0 5 10 15
  let block := quarterRound block 1 6 11 12
  let block := quarterRound block 2 7 8 13
  quarterRound block 3 4 9 14

def doubleRounds : Nat := 6

def start (key : Key) (number : UInt64) : Block :=
  #v[0x61707865, 0x3320646e, 0x79622d32, 0x6b206574,
    key[0], key[1], key[2], key[3], key[4], key[5], key[6], key[7],
    number.toUInt32, (number >>> 32).toUInt32, 0, 0]

def block (key : Key) (number : UInt64) : Block :=
  let start := start key number
  let mixed := Nat.repeat doubleRound doubleRounds start
  mixed.zipWith (fun left right => left + right) start

end Tenure.ChaCha
