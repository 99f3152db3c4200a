import Tenure.Handle

/-!
# Object graphs and reachability

Tracing sees objects only through their reference fields. What it has to find is
fixed here without any marking: the least set that holds the admitted roots and
is closed under the admitted fields of its members.
-/

set_option autoImplicit false

namespace Tenure

/-- The reference fields of every object, in field order. Objects that do not
exist have none. -/
abbrev Graph : Type := Handle → List (Option Handle)

/-- The objects a trace may enter. Those outside are never marked or reported. -/
abbrev ScanLimit : Type := Handle → Bool

def ScanLimit.none : ScanLimit := fun _ => true

/-- The objects that an object's fields name, in field order and with repeats. -/
def Graph.targets (graph : Graph) (holder : Handle) : List Handle :=
  (graph holder).filterMap id

/-- Being found from the roots along fields, inside a scan limit. -/
inductive Reachable (graph : Graph) (limit : ScanLimit) (roots : List Handle) : Handle → Prop where
  | root {handle} :
      handle ∈ roots → limit handle = true → Reachable graph limit roots handle
  | field {holder target} :
      Reachable graph limit roots holder → some target ∈ graph holder →
      limit target = true → Reachable graph limit roots target

@[simp] theorem Graph.mem_targets {graph : Graph} {holder target : Handle} :
    target ∈ graph.targets holder ↔ some target ∈ graph holder := by
  simp [Graph.targets]

theorem Reachable.admitted {graph : Graph} {limit : ScanLimit} {roots : List Handle}
    {handle : Handle} (reached : Reachable graph limit roots handle) : limit handle = true := by
  cases reached with
  | root _ admitted => exact admitted
  | field _ _ admitted => exact admitted

theorem Reachable.mono {graph : Graph} {limit : ScanLimit} {roots others : List Handle}
    (contained : ∀ root ∈ roots, limit root = true → root ∈ others) {handle : Handle}
    (reached : Reachable graph limit roots handle) : Reachable graph limit others handle := by
  induction reached with
  | root member admitted => exact .root (contained _ member admitted) admitted
  | field _ field admitted ih => exact .field ih field admitted

end Tenure
