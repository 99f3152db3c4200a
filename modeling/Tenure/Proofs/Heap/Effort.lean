import Tenure.Proofs.Heap.RootSets

/-!
# The steps of a trace

The trace of a cycle visits every object that it reaches once: the young ones that are
needed in a minor cycle, all that paths lead to from live roots in a major one. It takes as
many steps as their number needs with the budget of one step.
-/

set_option autoImplicit false

namespace Tenure

/-- Some objects are visited once each, so many in a step, and it takes these steps. -/
def TakesSteps (objects : Handle → Prop) (budget steps : Nat) : Prop :=
  0 < budget ∧ ∃ visited : List Handle, visited.Nodup ∧
    (∀ handle, handle ∈ visited ↔ objects handle) ∧
    steps = (visited.length + budget - 1) / budget

theorem TakesSteps.congr {objects others : Handle → Prop} {budget steps : Nat}
    (takes : TakesSteps objects budget steps) (same : ∀ handle, objects handle ↔ others handle) :
    TakesSteps others budget steps := by
  obtain ⟨positive, visited, distinct, members, counted⟩ := takes
  exact ⟨positive, visited, distinct, fun handle => (members handle).trans (same handle), counted⟩

theorem Marker.takesSteps_of_traceInSteps {graph : Graph} {limit : ScanLimit}
    {roots : List Handle} {marker after : Marker} {budget : Nat} {verified : Bool}
    {reached : HandleSet} (positive : 0 < budget)
    (ran : marker.traceInSteps graph limit roots budget verified = .ok (.ok reached, after)) :
    TakesSteps (Reachable graph limit roots) budget after.counts.steps := by
  have marks := marks_of_traceInSteps positive ran
  refine ⟨positive, reached.toList, reached.nodup_toList, fun handle => ?_, ?_⟩
  · rw [HandleSet.mem_toList, marks.contains_iff]
  · rw [marks.counts_eq, Std.TreeSet.length_toList]
    rfl

namespace Heap

variable {Source : Type} [MemorySource Source] {heap after : Heap Source} {marker next : Marker}
  {roots : List Handle}

theorem Sound.takesSteps_of_minorCycle (sound : heap.Sound)
    (positive : 0 < heap.settings.stepBudget.toNat) {outcome : MinorOutcome}
    (ran : heap.minorCycle marker roots = .ok (.ok outcome, after, next)) :
    TakesSteps (fun handle => heap.directory.isYoung handle = true ∧ heap.Needed roots handle)
      heap.settings.stepBudget.toNat outcome.trace.steps := by
  obtain ⟨_, answered, stages, run, _, measures⟩ := minorCycle_measures ran
  cases answered
  rw [measures.trace]
  exact (Marker.takesSteps_of_traceInSteps positive measures.traced).congr fun handle =>
    sound.reachable_young_iff run.scanned

theorem Sound.takesSteps_of_majorCycle (sound : heap.Sound)
    (positive : 0 < heap.settings.stepBudget.toNat) {outcome : MajorOutcome}
    (ran : heap.majorCycle marker roots = .ok (.ok outcome, after, next)) :
    TakesSteps (fun handle => ∃ root ∈ roots,
        heap.directory.isLive root = true ∧ heap.directory.graph.Leads root handle)
      heap.settings.stepBudget.toNat outcome.trace.steps := by
  rw [majorCycle_eq, Checked.bind_eq_ok_iff] at ran
  obtain ⟨⟨answered, marked⟩, traced, ran⟩ := ran
  cases answered with
  | error failure => cases ran
  | ok reached =>
      simp only [reclaimAll, bind_assoc, pure_bind, Checked.bind_eq_ok_iff,
        Checked.pure_eq_ok_iff, Prod.mk.injEq, Except.ok.injEq] at ran
      obtain ⟨_, _, _, _, _, _, _, _, rfl, _, _⟩ := ran
      exact (Marker.takesSteps_of_traceInSteps positive traced).congr fun _ =>
        reachable_iff_leads sound.closed

end Heap

end Tenure
