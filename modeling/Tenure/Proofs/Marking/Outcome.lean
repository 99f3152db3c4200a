import Tenure.Proofs.Marking.Schedule

/-!
# What a trace answers

Which objects a trace reaches, and how many references it looks at, depends on the
admitted roots and on nothing else: not on their order, not on what the marker did before,
not on the budget of a step and not on the check. Only the number of steps follows the
budget.
-/

set_option autoImplicit false

namespace Tenure

/-- Two lists name the same admitted roots, in any order and with any repeats. -/
def SameRoots (limit : ScanLimit) (roots others : List Handle) : Prop :=
  ∀ handle, limit handle = true → (handle ∈ roots ↔ handle ∈ others)

namespace SameRoots

variable {limit : ScanLimit} {roots others : List Handle}

theorem refl (limit : ScanLimit) (roots : List Handle) : SameRoots limit roots roots :=
  fun _ _ => Iff.rfl

theorem symm (same : SameRoots limit roots others) : SameRoots limit others roots :=
  fun handle admitted => (same handle admitted).symm

theorem append_right (same : SameRoots limit roots others) (more : List Handle) :
    SameRoots limit (roots ++ more) (others ++ more) := by
  intro handle admitted
  rw [List.mem_append, List.mem_append, same handle admitted]

theorem reachable {graph : Graph} (same : SameRoots limit roots others) {handle : Handle}
    (reached : Reachable graph limit roots handle) : Reachable graph limit others handle :=
  reached.mono fun root member admitted => (same root admitted).mp member

theorem reachable_iff (graph : Graph) (same : SameRoots limit roots others) (handle : Handle) :
    Reachable graph limit roots handle ↔ Reachable graph limit others handle :=
  ⟨same.reachable, same.symm.reachable⟩

theorem referencesFit {graph : Graph} (same : SameRoots limit roots others)
    (fit : graph.ReferencesFit limit roots) : graph.ReferencesFit limit others :=
  fun handles distinct reached =>
    fit handles distinct fun handle member => same.symm.reachable (reached handle member)

end SameRoots

/-- The counts of a trace under another budget. -/
def TraceCounts.rescheduled (budget : Nat) (counts : TraceCounts) : TraceCounts :=
  { counts with steps := (counts.scanned + budget - 1) / budget }

namespace Marker

variable {graph : Graph} {limit : ScanLimit} {roots handles : List Handle} {marker : Marker}

/-! ## A trace that ends has counted its references -/

theorem edges_lt_of_visitAll {targets : List Handle} {after : Marker}
    (ran : targets.foldlM (fun marker target => marker.visit limit target) marker = .ok after)
    (start : marker.counts.edges < Word.limit) :
    marker.counts.edges + targets.length < Word.limit := by
  refine (Checked.foldlM_induction (fun seen (current : Marker) =>
    current.counts.edges = marker.counts.edges + seen.length ∧
      marker.counts.edges + seen.length < Word.limit) ran ⟨rfl, start⟩ ?_).2
  intro seen target rest current next split holds visited
  obtain ⟨counted, _⟩ := holds
  rw [visit, Checked.bind_eq_ok_iff] at visited
  obtain ⟨edges, added, visited⟩ := visited
  obtain ⟨fits, rfl⟩ := Word.add_eq_ok_iff.mp added
  rw [Checked.pure_eq_ok_iff] at visited
  subst visited
  rw [List.length_append, List.length_singleton, counts_reach, ← Nat.add_assoc, ← counted]
  exact ⟨rfl, fits⟩

theorem Tracing.scan {handle : Handle} {rest : Marking.Worklist} {after : Marker}
    (tracing : marker.Tracing graph limit roots handles)
    (counted : marker.counts.edges < Word.limit)
    (popped : marker.worklist.pop? = some (handle, rest))
    (ran : { marker with worklist := rest }.scan graph limit handle = .ok after) :
    after.Tracing graph limit roots (handles ++ [handle]) ∧
      after.counts.edges < Word.limit := by
  have room : marker.counts.edges + (graph.targets handle).length < Word.limit := by
    have walked := ran
    rw [Marker.scan, Checked.bind_eq_ok_iff] at walked
    obtain ⟨pending, _, walked⟩ := walked
    rw [Checked.bind_eq_ok_iff] at walked
    obtain ⟨visited, walked, _⟩ := walked
    have fits := edges_lt_of_visitAll walked counted
    exact fits
  obtain ⟨same, scanned, later, _⟩ := tracing.scan_of_lt popped room
  rw [ran, Except.ok.injEq] at scanned
  subst scanned
  refine ⟨later, ?_⟩
  rw [later.edges_eq, tracing.references_append]
  exact room

/-- A trace that ends has seen all references among the reachable objects. -/
theorem referencesFit_of_stepAll {budget attempts calls total : Nat} {after : Marker}
    (tracing : marker.Tracing graph limit roots handles)
    (counted : marker.counts.edges < Word.limit)
    (ran : stepAll graph limit budget attempts calls marker = .ok (total, after)) :
    graph.ReferencesFit limit roots := by
  induction attempts generalizing calls handles marker with
  | zero => cases ran
  | succ attempts ih =>
      unfold stepAll at ran
      rw [Checked.bind_eq_ok_iff] at ran
      obtain ⟨⟨remaining, next⟩, stepped, ran⟩ := ran
      obtain ⟨scanned, later, counted⟩ := step_induction
        (fun current => ∃ handles, current.Tracing graph limit roots handles ∧
          current.counts.edges < Word.limit) stepped ⟨handles, tracing, counted⟩
        (fun current steps scanned holds => by
          obtain ⟨handles, tracing, counted⟩ := holds
          exact ⟨handles, tracing.recount steps scanned, counted⟩)
        (fun current next handle rest holds popped ran => by
          obtain ⟨handles, tracing, counted⟩ := holds
          exact ⟨handles ++ [handle], tracing.scan counted popped ran⟩)
      cases remaining with
      | true => exact ih later counted ran
      | false =>
          have finished := later.traced.queued.worklist_of_step stepped
          intro others distinct reached
          refine Nat.lt_of_le_of_lt ?_ (later.edges_eq ▸ counted)
          refine Handle.sum_le_of_subset (fun _ => Nat.le_refl _) distinct fun handle member => ?_
          rw [later.mem_iff_contains finished, contains_finish later.traced.queued,
            later.traced.colored_iff finished]
          exact reached handle member

theorem referencesFit_of_traceInSteps {budget : Nat} {verified : Bool}
    {answer : Answer HandleSet} {after : Marker}
    (ran : marker.traceInSteps graph limit roots budget verified = .ok (answer, after)) :
    graph.ReferencesFit limit roots := by
  rw [traceInSteps, Checked.bind_eq_ok_iff] at ran
  obtain ⟨⟨calls, marked⟩, drained, _⟩ := ran
  refine referencesFit_of_stepAll (tracing_start marker) ?_ drained
  rw [counts_start]
  decide

/-! ## The answer -/

/-- What a trace with this budget per step answers: the reachable objects, each of them
scanned once. -/
structure Marks (graph : Graph) (limit : ScanLimit) (roots : List Handle) (budget : Nat)
    (reached : HandleSet) (after : Marker) : Prop where
  contains_iff : ∀ handle, reached.contains handle = true ↔ Reachable graph limit roots handle
  counts_eq : after.counts = TraceCounts.rescheduled budget
    { steps := 0, scanned := reached.size, edges := graph.references reached.toList }

/-- With a budget a trace ends, and it answers exactly the reachable objects. -/
theorem traceInSteps_total (marker : Marker) {budget : Nat} (verified : Bool)
    (fit : graph.ReferencesFit limit roots) (positive : 0 < budget) :
    ∃ reached after,
      marker.traceInSteps graph limit roots budget verified = .ok (.ok reached, after) ∧
        Marks graph limit roots budget reached after := by
  obtain ⟨calls, _, _, marked, drained, ends⟩ := marker.drain_ends fit positive
  have complete := ends.complete
  have passed : (if verified = true then marked.verify graph limit else .ok ()) = .ok () := by
    split
    · exact complete.verified
    · rfl
  refine ⟨marked.finish.1, marked.finish.2, Checked.bind_of_eq_ok drained ?_,
    complete.contains_iff, ?_⟩
  · simp only [passed]
    rfl
  · change marked.counts = _
    rw [TraceCounts.rescheduled, ← complete.steps_eq budget fun _ => rfl, ← complete.scanned_eq,
      ← complete.edges_eq]

theorem marks_of_traceInSteps {budget : Nat} {verified : Bool} {reached : HandleSet}
    {after : Marker} (positive : 0 < budget)
    (ran : marker.traceInSteps graph limit roots budget verified = .ok (.ok reached, after)) :
    Marks graph limit roots budget reached after := by
  obtain ⟨_, _, traced, marks⟩ :=
    marker.traceInSteps_total verified (referencesFit_of_traceInSteps ran) positive
  rw [ran] at traced
  cases traced
  exact marks

/-- Two answers about the same roots differ in the number of steps alone. -/
theorem Marks.alike {others : List Handle} {budget budget' : Nat} {reached reached' : HandleSet}
    {after after' : Marker} (marks : Marks graph limit roots budget reached after)
    (marks' : Marks graph limit others budget' reached' after')
    (same : SameRoots limit roots others) :
    reached'.contains = reached.contains ∧ reached'.size = reached.size ∧
      after'.counts = after.counts.rescheduled budget' := by
  have contains : reached'.contains = reached.contains := by
    funext handle
    rw [Bool.eq_iff_iff, marks'.contains_iff, marks.contains_iff, same.reachable_iff]
  have order : reached'.toList.Perm reached.toList :=
    HandleSet.perm_toList reached'.nodup_toList fun handle => by
      rw [HandleSet.mem_toList, contains]
  have size : reached'.size = reached.size := by
    rw [← Std.TreeSet.length_toList, order.length_eq, Std.TreeSet.length_toList]
  refine ⟨contains, size, ?_⟩
  rw [marks'.counts_eq, marks.counts_eq, size]
  have edges : graph.references reached'.toList = graph.references reached.toList :=
    (order.map fun handle => (graph.targets handle).length).sum_nat
  rw [edges]
  rfl

end Marker

end Tenure
