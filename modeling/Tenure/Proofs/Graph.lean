import Mathlib.Algebra.GroupWithZero.Nat
import Tenure.Graph

/-!
# Paths of fields

Reachability from several roots comes down to paths from one of them, as soon as no
path can leave the scan limit. What a trace looks at on its paths is counted here, too.
-/

set_option autoImplicit false

namespace Tenure

/-- A path of fields leads from one object to another. -/
def Graph.Leads (graph : Graph) (start handle : Handle) : Prop :=
  Reachable graph .none [start] handle

namespace Graph.Leads

variable {graph : Graph} {start handle : Handle}

theorem refl (graph : Graph) (handle : Handle) : graph.Leads handle handle :=
  .root List.mem_cons_self rfl

theorem field (leads : graph.Leads start handle) {target : Handle}
    (named : some target ∈ graph handle) : graph.Leads start target :=
  Reachable.field leads named rfl

theorem induction (leads : graph.Leads start handle) {motive : Handle → Prop}
    (first : motive start)
    (next : ∀ holder target, graph.Leads start holder → motive holder →
      some target ∈ graph holder → motive target) : motive handle := by
  induction leads with
  | root member _ =>
      rw [List.mem_singleton] at member
      exact member ▸ first
  | field path named _ ih => exact next _ _ path ih named

end Graph.Leads

/-- If fields name admitted objects only, the reachable objects are those at the ends of
paths from admitted roots. -/
theorem reachable_iff_leads {graph : Graph} {limit : ScanLimit} {roots : List Handle}
    (closed : ∀ holder target, some target ∈ graph holder → limit target = true)
    {handle : Handle} :
    Reachable graph limit roots handle ↔
      ∃ root ∈ roots, limit root = true ∧ graph.Leads root handle := by
  constructor
  · intro reached
    induction reached with
    | @root handle member admitted => exact ⟨handle, member, admitted, .refl graph handle⟩
    | field _ named _ ih =>
        obtain ⟨root, member, admitted, leads⟩ := ih
        exact ⟨root, member, admitted, leads.field named⟩
  · intro path
    obtain ⟨root, member, admitted, leads⟩ := path
    refine leads.induction (.root member admitted) fun holder target _ reached named => ?_
    exact .field reached named (closed holder target named)

/-- The number of references that some objects hold; null fields do not count. -/
def Graph.references (graph : Graph) (handles : List Handle) : Nat :=
  (handles.map fun handle => (graph.targets handle).length).sum

theorem Graph.references_append (graph : Graph) (handles others : List Handle) :
    graph.references (handles ++ others) = graph.references handles + graph.references others := by
  simp [references]

end Tenure
