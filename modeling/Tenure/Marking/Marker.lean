import Std.Data.TreeMap
import Tenure.Failure
import Tenure.Graph
import Tenure.Marking.Worklist
import Tenure.Word

/-!
# Tri-color marking

A trace colors objects: white ones were not reached, gray ones wait to have their
fields scanned, black ones were scanned. Gray objects are scanned first come
first served, all at once or in steps of a bounded number of objects.

Stepping may be interleaved with changes of the graph. That is sound only if
every store of a white object into a black one is reported by `Marker.shade`.
-/

set_option autoImplicit false

namespace Tenure

/-- The progress of a trace at one object. -/
inductive Color where
  | white
  | gray
  | black
deriving DecidableEq, Repr

structure TraceCounts where
  steps : Nat
  scanned : Nat
  /-- References looked at; null fields do not count. -/
  edges : Nat
deriving DecidableEq, Repr

def TraceCounts.zero : TraceCounts := { steps := 0, scanned := 0, edges := 0 }

/-- The state of a trace. Objects without an entry among the colors are white. -/
structure Marker where
  colors : Std.TreeMap Handle Color
  worklist : Marking.Worklist
  pending : Nat
  counts : TraceCounts

namespace Marker

def fresh : Marker :=
  { colors := ∅, worklist := .empty, pending := 0, counts := .zero }

def colorOf (marker : Marker) (handle : Handle) : Color := marker.colors.getD handle .white

def gray (marker : Marker) (handle : Handle) : Marker :=
  { marker with
    colors := marker.colors.insert handle .gray
    worklist := marker.worklist.push handle
    pending := marker.pending + 1 }

def reach (marker : Marker) (limit : ScanLimit) (handle : Handle) : Marker :=
  if limit handle && marker.colorOf handle = .white then marker.gray handle else marker

def reset (marker : Marker) : Marker :=
  { marker with colors := ∅, worklist := .empty, pending := 0, counts := .zero }

/-- Begins a trace: every object is white except for the admitted roots. -/
def start (marker : Marker) (roots : List Handle) (limit : ScanLimit) : Marker :=
  roots.foldl (fun marker root => marker.reach limit root) marker.reset

def visit (marker : Marker) (limit : ScanLimit) (target : Handle) : Checked Marker := do
  let edges ← Word.add marker.counts.edges 1
  return { marker with counts := { marker.counts with edges } }.reach limit target

def scan (marker : Marker) (graph : Graph) (limit : ScanLimit) (handle : Handle) :
    Checked Marker := do
  let pending ← Word.sub marker.pending 1
  let marker ← (graph.targets handle).foldlM (fun marker target => marker.visit limit target)
    { marker with pending }
  return { marker with colors := marker.colors.insert handle .black }

/-- Scans queued objects, at most `budget` of them, and answers how many more
than `done` were scanned. -/
def scanUpTo (graph : Graph) (limit : ScanLimit) :
    (budget done : Nat) → Marker → Checked (Nat × Marker)
  | 0, done, marker => .ok (done, marker)
  | budget + 1, done, marker =>
    match marker.worklist.pop? with
    | none => .ok (done, marker)
    | some (handle, worklist) => do
      let marker ← { marker with worklist }.scan graph limit handle
      scanUpTo graph limit budget (done + 1) marker

/-- Scans at most `budget` gray objects and answers whether gray ones remain. -/
def step (marker : Marker) (graph : Graph) (limit : ScanLimit) (budget : Nat) :
    Checked (Bool × Marker) := do
  let (scanned, marker) ← scanUpTo graph limit budget 0 marker
  let marker :=
    if scanned > 0 then
      { marker with
        counts :=
          { marker.counts with
            steps := marker.counts.steps + 1
            scanned := marker.counts.scanned + scanned } }
    else marker
  return (marker.pending > 0, marker)

/-- Repeats steps until no gray object remains and answers how many steps were
asked for, at most `attempts`. -/
def stepAll (graph : Graph) (limit : ScanLimit) (budget : Nat) :
    (attempts calls : Nat) → Marker → Checked (Nat × Marker)
  | 0, _, _ => .error .markingStalled
  | attempts + 1, calls, marker => do
    let (remaining, marker) ← marker.step graph limit budget
    if remaining then stepAll graph limit budget attempts (calls + 1) marker
    else return (calls + 1, marker)

/-- Repeats steps until no gray object remains. Every step with a budget scans
one of the finitely many handles, so the number of handles bounds the steps. -/
def drain (marker : Marker) (graph : Graph) (limit : ScanLimit) (budget : Nat) :
    Checked (Nat × Marker) :=
  stepAll graph limit budget (Handle.count + 1) 0 marker

/-- Colors an object gray, so that it is scanned (again); answers whether its
color changed. A barrier has to do this when a white object is stored into a
black one. -/
def shade (marker : Marker) (handle : Handle) : Bool × Marker :=
  if marker.colorOf handle = .gray then (false, marker) else (true, marker.gray handle)

/-- The first admitted white object that a scanned object references. -/
def whiteTarget? (marker : Marker) (graph : Graph) (limit : ScanLimit) (holder : Handle) :
    Option Handle :=
  (graph.targets holder).find? fun target => limit target && marker.colorOf target = .white

/-- The first black object, in the order of handles, that references a white one. -/
def violation? (marker : Marker) (graph : Graph) (limit : ScanLimit) :
    Option (Handle × Handle) :=
  marker.colors.toList.findSome? fun (holder, color) =>
    if color = .black then (marker.whiteTarget? graph limit holder).map (holder, ·) else none

def verify (marker : Marker) (graph : Graph) (limit : ScanLimit) : Answer Unit :=
  match marker.violation? graph limit with
  | some (holder, target) => .error (.invariantViolation holder target)
  | none => .ok ()

/-- Ends the trace and answers every object it reached, scanned or not. The
counters stay readable. -/
def finish (marker : Marker) : HandleSet × Marker :=
  (HandleSet.of marker.colors.keys, { marker.reset with counts := marker.counts })

def trace (marker : Marker) (graph : Graph) (limit : ScanLimit) (roots : List Handle) :
    Checked (HandleSet × Marker) := do
  let (_, marker) ← (marker.start roots limit).drain graph limit Word.greatest
  return marker.finish

/-- Marks everything reachable from the roots in steps of `budget` objects, checks
the result where `verified` asks for it, and answers it. -/
def traceInSteps (marker : Marker) (graph : Graph) (limit : ScanLimit) (roots : List Handle)
    (budget : Nat) (verified : Bool) : Checked (Answer HandleSet × Marker) := do
  let (_, marker) ← (marker.start roots limit).drain graph limit budget
  match if verified then marker.verify graph limit else .ok () with
  | .error failure => return (.error failure, marker)
  | .ok () =>
    let (reached, marker) := marker.finish
    return (.ok reached, marker)

end Marker

end Tenure
