import Tenure.Cards
import Tenure.Graph

/-!
# Scanning a card

A scan finds the old objects of a card that reference young ones. The mark goes
before the objects are looked at; whoever scans has to mark again the holders
that still reference young objects once everything has moved.
-/

set_option autoImplicit false

namespace Tenure

/-- What a card scan has to know about the old space. -/
structure CardView where
  /-- The old objects whose storage overlaps a range, in address order. -/
  overlapping : (start stop : Nat) → List Handle
  graph : Graph
  isYoung : Handle → Bool

def CardView.referencesYoung (view : CardView) (holder : Handle) : Bool :=
  (view.graph.targets holder).any view.isYoung

/-- Cleans a card and answers the objects in it that reference young ones. -/
def CardTable.scan (table : CardTable) (view : CardView) (index : Nat) :
    Checked (List Handle × CardTable) := do
  let cleaned := table.clean index
  match ← cleaned.range index with
  | none => return ([], cleaned)
  | some (start, stop) =>
    return ((view.overlapping start stop).filter view.referencesYoung, cleaned)

def CardTable.scanAll (table : CardTable) (view : CardView) (indices : List Nat) :
    Checked (List Handle × CardTable) :=
  indices.foldlM (fun (holders, table) index => do
    let (found, table) ← table.scan view index
    return (holders ++ found, table)) ([], table)

end Tenure
