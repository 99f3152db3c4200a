import Tenure.Arena.Slide
import Tenure.Graph

/-!
# The directory of objects

The directory leads from handles to what is known about their objects. Moving an
object changes its record and no handle. Slots of reclaimed objects are used
again, the latest first, under the next epoch.
-/

set_option autoImplicit false

namespace Tenure

structure Record where
  generation : Generation
  age : Nat
  space : Space
  address : Nat
  size : Nat
  fields : List (Option Handle)
deriving DecidableEq, Repr

def fieldWidth : Nat := 12

def nullFields (count : Nat) : Checked (List (Option Handle)) := do
  Word.checkTable count fieldWidth
  return List.replicate count none

structure Entry where
  epoch : UInt32
  record : Option Record
deriving DecidableEq, Repr

/-- The slots with their objects, the free ones among them in the order of reuse,
and the number of live objects. -/
structure Directory where
  entries : Array Entry
  free : List UInt32
  live : Nat
deriving DecidableEq, Repr

structure Tally where
  objects : Nat
  bytes : Nat
deriving DecidableEq, Repr

namespace Directory

def slotLimit : Nat := 0xffffffff

def empty : Directory := { entries := #[], free := [], live := 0 }

def get? (directory : Directory) (handle : Handle) : Option Record :=
  match directory.entries[handle.slot.toNat]? with
  | some entry => if entry.epoch = handle.epoch then entry.record else none
  | none => none

def isLive (directory : Directory) (handle : Handle) : Bool := (directory.get? handle).isSome

def fresh? (directory : Directory) : Option Handle :=
  match directory.free with
  | slot :: _ => directory.entries[slot.toNat]?.map fun entry => { slot, epoch := entry.epoch }
  | [] =>
    if directory.entries.size < slotLimit then
      some { slot := directory.entries.size.toUInt32, epoch := 0 }
    else none

def insert (directory : Directory) (record : Record) : Directory :=
  match directory.free with
  | slot :: free =>
    { entries := directory.entries.modify slot.toNat fun entry =>
        { entry with record := some record }
      free
      live := directory.live + 1 }
  | [] =>
    { directory with
      entries := directory.entries.push { epoch := 0, record := some record }
      live := directory.live + 1 }

def update (directory : Directory) (handle : Handle) (change : Record → Record) : Directory :=
  if directory.isLive handle then
    { directory with
      entries := directory.entries.modify handle.slot.toNat fun entry =>
        { entry with record := entry.record.map change } }
  else directory

/-- Gives back the slot of a live object. The next epoch makes its handles stale. -/
def release (directory : Directory) (handle : Handle) :
    Checked (Option Record × Directory) := do
  match directory.get? handle with
  | none => return (none, directory)
  | some record =>
    let live ← Word.sub directory.live 1
    return (some record,
      { entries := directory.entries.modify handle.slot.toNat fun entry =>
          { epoch := entry.epoch + 1, record := none }
        free := handle.slot :: directory.free
        live })

def sweep (directory : Directory) (dead : List Handle) : Checked (Tally × Directory) :=
  dead.foldlM (fun (tally, directory) handle => do
    match ← directory.release handle with
    | (none, directory) => return (tally, directory)
    | (some record, directory) =>
      let bytes ← Word.add tally.bytes record.size
      return ({ objects := tally.objects + 1, bytes }, directory))
    ({ objects := 0, bytes := 0 }, directory)

def graph (directory : Directory) : Graph := fun handle =>
  match directory.get? handle with
  | some record => record.fields
  | none => []

/-- The storage of an object; none if it is not live. -/
def sizeOf (directory : Directory) (handle : Handle) : Nat :=
  match directory.get? handle with
  | some record => record.size
  | none => 0

def generation? (directory : Directory) (handle : Handle) : Option Generation :=
  (directory.get? handle).map Record.generation

def isYoung (directory : Directory) (handle : Handle) : Bool :=
  (directory.generation? handle).any Generation.isYoung

def referencesYoung (directory : Directory) (handle : Handle) : Bool :=
  (directory.graph.targets handle).any directory.isYoung

def follow (directory : Directory) (moves : List Relocation) : Directory :=
  moves.foldl (fun directory move =>
    directory.update move.handle fun record => { record with address := move.target }) directory

end Directory

end Tenure
