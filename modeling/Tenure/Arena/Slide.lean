import Tenure.Arena

/-!
# Sliding residents together

The residents that stay move down over the gaps of those that go. Their order is
kept, so no move overwrites an object that still has to move.
-/

set_option autoImplicit false

namespace Tenure

structure Relocation where
  handle : Handle
  source : Nat
  target : Nat
deriving DecidableEq, Repr

namespace Arena

/-- A slide on its way: the next free offset, the residents placed so far and
the moves they took. -/
structure Slide where
  cursor : Nat
  kept : Array Resident
  moved : Array Relocation

def Slide.start : Slide := { cursor := 0, kept := #[], moved := #[] }

def Slide.take (base : Nat) (keep : Handle → Bool) (slide : Slide) (resident : Resident) :
    Checked Slide := do
  if keep resident.handle then
    let moved ←
      if slide.cursor = resident.offset then pure slide.moved
      else do
        let source ← Word.add base resident.offset
        let target ← Word.add base slide.cursor
        pure (slide.moved.push { handle := resident.handle, source, target })
    let cursor ← Word.add slide.cursor resident.size
    return { cursor, kept := slide.kept.push { resident with offset := slide.cursor }, moved }
  else
    return slide

/-- Keeps the residents that `keep` selects, slid to the bottom, and answers the
moves of those whose address changed, in address order. -/
def slide (arena : Arena) (keep : Handle → Bool) : Checked (List Relocation × Arena) := do
  let done ← arena.residents.foldlM (Slide.take arena.base keep) Slide.start
  return (done.moved.toList, { arena with used := done.cursor, residents := done.kept })

end Arena

end Tenure
