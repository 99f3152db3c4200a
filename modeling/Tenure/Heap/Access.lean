import Tenure.Heap.Basic

/-!
# Allocation and access to fields

These are the operations of the running program. None of them moves or reclaims
an object, and one that is refused changes nothing.
-/

set_option autoImplicit false

namespace Tenure.Heap

variable {Source : Type}

/-- Places an object with so many null fields in eden. Answers none where eden
has no room; to collect and to try again is up to the caller. The object has its
slot before it has its place, and would give it back if eden refused it then. -/
def tryAllocate (heap : Heap Source) (size fieldCount : Nat) :
    Checked (Option Handle × Heap Source) := do
  match ← heap.eden.room? size with
  | none => return (none, heap)
  | some size =>
    let fields ← nullFields fieldCount
    match heap.directory.fresh? with
    | none => return (none, heap)
    | some handle =>
      let record (address : Nat) : Record :=
        { generation := .eden, age := 0, space := .eden, address, size, fields }
      match ← heap.eden.placement? size with
      | some place =>
        return (some handle,
          { heap with
            directory := heap.directory.insert (record place.address)
            eden := heap.eden.push handle place.size })
      | none =>
        let (_, directory) ← (heap.directory.insert (record 0)).release handle
        return (none, { heap with directory })

def load (heap : Heap Source) (holder : Handle) (index : Nat) : Answer (Option Handle) :=
  match heap.directory.get? holder with
  | none => .error (.staleHandle holder)
  | some record =>
    match record.fields[index]? with
    | some value => .ok value
    | none => .error (.fieldOutOfBounds holder index record.fields.length)

def valueGeneration (heap : Heap Source) : Option Handle → Answer (Option Generation)
  | none => .ok none
  | some target =>
    match heap.directory.generation? target with
    | some generation => .ok (some generation)
    | none => .error (.staleHandle target)

/-- Why a store is refused, or else the generation of the value and the record of
the holder. A stale value is reported before a stale holder. -/
def checkStore (heap : Heap Source) (holder : Handle) (index : Nat) (value : Option Handle) :
    Answer (Option Generation × Record) := do
  let generation ← heap.valueGeneration value
  match heap.directory.get? holder with
  | none => throw (.staleHandle holder)
  | some record =>
    if index < record.fields.length then return (generation, record)
    else throw (.fieldOutOfBounds holder index record.fields.length)

def store (heap : Heap Source) (holder : Handle) (index : Nat) (value : Option Handle) :
    Checked (Answer Unit × Heap Source) := do
  match heap.checkStore holder index value with
  | .error failure => return (.error failure, heap)
  | .ok (generation, record) =>
    let (_, cards, barrier) ←
      heap.cards.onStore heap.barrier record.generation record.address generation
    let directory := heap.directory.update holder fun record =>
      { record with fields := record.fields.set index value }
    return (.ok (), { heap with cards, barrier, directory })

end Tenure.Heap
