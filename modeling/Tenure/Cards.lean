import Tenure.Generation
import Tenure.Word

/-!
# Card tables

A card table divides the old space into cards of equal size and keeps one mark
for each of them. A card is dirty when an old object that starts in it may
reference a young one; minor cycles look at dirty cards only.
-/

set_option autoImplicit false

namespace Tenure

/-- The marks of the cards that cover `extent` bytes from `base` on. -/
structure CardTable where
  base : Nat
  extent : Nat
  cardSize : Nat
  marks : Array Bool
deriving DecidableEq, Repr

namespace CardTable

def defaultCardSize : Nat := 512

def cardsFor (extent cardSize : Nat) : Nat := (extent + cardSize - 1) / cardSize

def markWidth : Nat := 1

/-- A table without dirty cards. Card sizes are powers of two. -/
def create (base extent cardSize : Nat) : Checked CardTable :=
  if Word.isPowerOfTwo cardSize then do
    Word.checkTable (cardsFor extent cardSize) markWidth
    return { base, extent, cardSize, marks := Array.replicate (cardsFor extent cardSize) false }
  else .error .cardSizeNotPowerOfTwo

def size (table : CardTable) : Nat := table.marks.size

def cardOf (table : CardTable) (address : Nat) : Checked (Option Nat) :=
  if address < table.base then .ok none
  else do
    let stop ← Word.add table.base table.extent
    if address ≥ stop then return none
    else return some ((address - table.base) / table.cardSize)

/-- The addresses of a card: its start and the address after its end. -/
def range (table : CardTable) (index : Nat) : Checked (Option (Nat × Nat)) :=
  if index ≥ table.size then .ok none
  else do
    let start ← Word.add table.base (index * table.cardSize)
    let stop ← Word.add start table.cardSize
    let last ← Word.add table.base table.extent
    return some (start, min stop last)

/-- Whether a card is dirty; there are no dirty cards outside the table. -/
def isDirty (table : CardTable) (index : Nat) : Bool := table.marks.getD index false

def dirty (table : CardTable) : List Nat := (List.range table.size).filter table.isDirty

def dirtyCount (table : CardTable) : Nat := table.marks.count true

/-- Marks the card that holds an address and answers whether there is one. -/
def mark (table : CardTable) (address : Nat) : Checked (Bool × CardTable) := do
  match ← table.cardOf address with
  | none => return (false, table)
  | some index =>
    if index < table.size then
      return (true, { table with marks := table.marks.setIfInBounds index true })
    else throw .indexOutOfRange

def clean (table : CardTable) (index : Nat) : CardTable :=
  { table with marks := table.marks.setIfInBounds index false }

def clear (table : CardTable) : CardTable :=
  { table with marks := Array.replicate table.size false }

/-- Changes the number of covered bytes. Cards that stay keep their marks and new
ones are clean. -/
def resize (table : CardTable) (extent : Nat) : Checked CardTable := do
  let count := cardsFor extent table.cardSize
  Word.checkTable count markWidth
  return { table with
    extent
    marks := table.marks.extract 0 count ++ Array.replicate (count - table.size) false }

end CardTable

end Tenure
