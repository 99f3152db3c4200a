import Tenure.Proofs.Marking.Progress

/-!
# Traces under every schedule

A schedule gives each step of a trace a budget of its own. As long as every budget is
positive, the schedule decides how many steps there are and nothing else: the trace ends,
passes the check of its invariant and answers the reachable objects, each scanned once.
-/

set_option autoImplicit false

namespace Tenure.Marker

variable {graph : Graph} {limit : ScanLimit} {roots handles : List Handle} {marker : Marker}

/-- Steps with these budgets, one after the other, and their answers. -/
def stepEach (graph : Graph) (limit : ScanLimit) :
    List Nat → Marker → Checked (List Bool × Marker)
  | [], marker => .ok ([], marker)
  | budget :: budgets, marker => do
    let (remaining, marker) ← marker.step graph limit budget
    let (answers, marker) ← stepEach graph limit budgets marker
    return (remaining :: answers, marker)

theorem stepEach_cons {budget : Nat} {budgets : List Nat} {remaining : Bool}
    {answers : List Bool} {next after : Marker}
    (first : marker.step graph limit budget = .ok (remaining, next))
    (rest : stepEach graph limit budgets next = .ok (answers, after)) :
    stepEach graph limit (budget :: budgets) marker = .ok (remaining :: answers, after) := by
  simp only [stepEach, Checked.bind_eq_ok_iff]
  exact ⟨_, first, _, rest, rfl⟩

/-- A trace that has ended under a schedule after `calls` steps that left gray objects. -/
structure Ends (graph : Graph) (limit : ScanLimit) (roots handles : List Handle)
    (budgets : Nat → Nat) (marker : Marker) (calls : Nat) (more : List Handle)
    (final : Marker) : Prop where
  ran : stepEach graph limit ((List.range (calls + 1)).map budgets) marker =
    .ok (List.replicate calls true ++ [false], final)
  tracing : final.Tracing graph limit roots (handles ++ more)
  finished : final.worklist.toList = []
  scanned_eq : final.counts.scanned = marker.counts.scanned + more.length
  steps_eq : ∀ budget, (∀ call, budgets call = budget) →
    final.counts.steps = marker.counts.steps + (more.length + budget - 1) / budget

theorem Advances.ends {budgets : Nat → Nat} {more : List Handle} {final : Marker}
    (advances : marker.Advances graph limit roots handles (budgets 0) more false final)
    (positive : ∀ call, 0 < budgets call) :
    marker.Ends graph limit roots handles budgets 0 more final := by
  refine ⟨stepEach_cons advances.ran rfl, advances.tracing,
    advances.tracing.traced.queued.worklist_of_step advances.ran, advances.scanned_eq,
    fun budget constant => ?_⟩
  have most := advances.length_le
  have some_budget := positive 0
  rw [constant 0] at most some_budget
  rw [advances.steps_eq]
  cases more with
  | nil => rw [if_pos rfl, List.length_nil, Nat.div_eq_of_lt (by omega)]
  | cons first others =>
      have once : ((first :: others).length + budget - 1) / budget = 1 := by
        rw [List.length_cons] at most ⊢
        exact Nat.div_eq_of_lt_le (by omega) (by omega)
      rw [if_neg (List.cons_ne_nil first others), once]

theorem Advances.prepend {budgets : Nat → Nat} {more others : List Handle} {calls : Nat}
    {next final : Marker}
    (advances : marker.Advances graph limit roots handles (budgets 0) more true next)
    (positive : ∀ call, 0 < budgets call)
    (ends : next.Ends graph limit roots (handles ++ more) (fun call => budgets (call + 1)) calls
      others final) :
    marker.Ends graph limit roots handles budgets (calls + 1) (more ++ others) final := by
  have length := advances.full rfl
  refine ⟨?_, ?_, ends.finished, ?_, fun budget constant => ?_⟩
  · have order : (List.range (calls + 1 + 1)).map budgets =
        budgets 0 :: (List.range (calls + 1)).map fun call => budgets (call + 1) := by
      rw [List.range_succ_eq_map]
      simp [Function.comp_def]
    rw [order]
    exact stepEach_cons advances.ran ends.ran
  · rw [← List.append_assoc]
    exact ends.tracing
  · rw [ends.scanned_eq, advances.scanned_eq, List.length_append, Nat.add_assoc]
  · have some_budget := positive 0
    rw [constant 0] at length some_budget
    have nonempty : more ≠ [] := by
      rintro rfl
      rw [← length] at some_budget
      cases some_budget
    have sum : (more ++ others).length + budget - 1 = others.length + budget - 1 + budget := by
      rw [List.length_append]
      omega
    rw [ends.steps_eq budget fun call => constant (call + 1), advances.steps_eq,
      if_neg nonempty, sum, Nat.add_div_right _ some_budget]
    omega

theorem Tracing.ends {attempts : Nat} {budgets : Nat → Nat}
    (tracing : marker.Tracing graph limit roots handles)
    (fit : graph.ReferencesFit limit roots) (positive : ∀ call, 0 < budgets call)
    (enough : Handle.count < attempts + handles.length) :
    ∃ calls more final, marker.Ends graph limit roots handles budgets calls more final := by
  induction attempts generalizing handles marker budgets with
  | zero =>
      have bounded := tracing.length_le
      omega
  | succ attempts ih =>
      obtain ⟨more, remaining, next, advances⟩ := tracing.step_total fit (budgets 0)
      cases remaining with
      | false => exact ⟨0, more, next, advances.ends positive⟩
      | true =>
          have longer : Handle.count < attempts + (handles ++ more).length := by
            have some_budget := positive 0
            rw [List.length_append, advances.full rfl]
            omega
          obtain ⟨calls, others, final, ends⟩ :=
            ih advances.tracing (fun call => positive (call + 1)) longer
          exact ⟨calls + 1, more ++ others, final, advances.prepend positive ends⟩

/-- Repeated steps with one budget are a schedule that ends. -/
theorem Tracing.stepAll_ends {attempts budget : Nat} (calls : Nat)
    (tracing : marker.Tracing graph limit roots handles)
    (fit : graph.ReferencesFit limit roots) (positive : 0 < budget)
    (enough : Handle.count < attempts + handles.length) :
    ∃ total asked more final,
      stepAll graph limit budget attempts calls marker = .ok (total, final) ∧
        marker.Ends graph limit roots handles (fun _ => budget) asked more final := by
  induction attempts generalizing calls handles marker with
  | zero =>
      have bounded := tracing.length_le
      omega
  | succ attempts ih =>
      unfold stepAll
      obtain ⟨more, remaining, next, advances⟩ := tracing.step_total fit budget
      cases remaining with
      | false =>
          exact ⟨calls + 1, 0, more, next, Checked.bind_of_eq_ok advances.ran rfl,
            advances.ends (fun _ => positive)⟩
      | true =>
          have longer : Handle.count < attempts + (handles ++ more).length := by
            rw [List.length_append, advances.full rfl]
            omega
          obtain ⟨total, asked, others, final, ran, ends⟩ := ih (calls + 1) advances.tracing longer
          exact ⟨total, asked + 1, more ++ others, final, Checked.bind_of_eq_ok advances.ran ran,
            advances.prepend (fun _ => positive) ends⟩

theorem drain_ends (marker : Marker) {budget : Nat} (fit : graph.ReferencesFit limit roots)
    (positive : 0 < budget) : ∃ total asked more final,
      (marker.start roots limit).drain graph limit budget = .ok (total, final) ∧
        (marker.start roots limit).Ends graph limit roots [] (fun _ => budget) asked more final :=
  (tracing_start marker).stepAll_ends 0 fit positive (Nat.lt_succ_self _)

theorem Tracing.mem_iff_contains (tracing : marker.Tracing graph limit roots handles)
    (finished : marker.worklist.toList = []) (handle : Handle) :
    handle ∈ handles ↔ marker.finish.1.contains handle = true := by
  rw [contains_finish tracing.traced.queued, ← tracing.black_iff]
  have scanned := tracing.traced.queued.ne_gray_of_finished finished handle
  cases color : marker.colorOf handle with
  | white => simp
  | gray => exact absurd color scanned
  | black => simp

/-- A trace that has ended passes its check and has scanned the reachable objects, each of
them once. -/
structure Complete (graph : Graph) (limit : ScanLimit) (roots : List Handle) (budgets : Nat → Nat)
    (marker : Marker) : Prop where
  verified : marker.verify graph limit = .ok ()
  contains_iff : ∀ handle,
    marker.finish.1.contains handle = true ↔ Reachable graph limit roots handle
  scanned_eq : marker.counts.scanned = marker.finish.1.size
  edges_eq : marker.counts.edges = graph.references marker.finish.1.toList
  steps_eq : ∀ budget, (∀ call, budgets call = budget) →
    marker.counts.steps = (marker.finish.1.size + budget - 1) / budget

theorem Ends.complete {budgets : Nat → Nat} {calls : Nat} {final : Marker}
    (ends : (marker.start roots limit).Ends graph limit roots [] budgets calls handles final) :
    final.Complete graph limit roots budgets := by
  have tracing := ends.tracing
  rw [List.nil_append] at tracing
  have order := HandleSet.perm_toList tracing.distinct (tracing.mem_iff_contains ends.finished)
  have size : handles.length = final.finish.1.size := by
    rw [order.length_eq, Std.TreeSet.length_toList]
  constructor
  · exact verify_eq_ok_iff.mpr tracing.traced.closed
  · intro handle
    rw [contains_finish tracing.traced.queued, tracing.traced.colored_iff ends.finished]
  · have scanned := ends.scanned_eq
    rw [counts_start, size] at scanned
    exact scanned.trans (Nat.zero_add _)
  · refine tracing.edges_eq.trans ?_
    exact (order.map fun handle => (graph.targets handle).length).sum_nat
  · intro budget constant
    have steps := ends.steps_eq budget constant
    rw [counts_start, size] at steps
    exact steps.trans (Nat.zero_add _)

theorem trace_total (marker : Marker) (fit : graph.ReferencesFit limit roots) :
    ∃ reached after, marker.trace graph limit roots = .ok (reached, after) ∧
      ∀ handle, reached.contains handle = true ↔ Reachable graph limit roots handle := by
  have positive : 0 < Word.greatest := by decide
  obtain ⟨calls, _, _, marked, drained, ends⟩ := marker.drain_ends fit positive
  exact ⟨marked.finish.1, marked.finish.2, Checked.bind_of_eq_ok drained rfl,
    ends.complete.contains_iff⟩

/-- Whatever the schedule, the trace ends, passes its check and answers exactly the
reachable objects. Each is scanned once, and nothing of the trace is left behind. -/
theorem tracing_equals_reachability (marker : Marker) {budgets : Nat → Nat}
    (fit : graph.ReferencesFit limit roots) (positive : ∀ call, 0 < budgets call) :
    ∃ (calls : Nat) (final : Marker),
      stepEach graph limit ((List.range (calls + 1)).map budgets) (marker.start roots limit) =
        .ok (List.replicate calls true ++ [false], final) ∧
      final.verify graph limit = .ok () ∧
      (∀ handle, final.finish.1.contains handle = true ↔ Reachable graph limit roots handle) ∧
      (∀ other : Marker, ∃ reached after, other.trace graph limit roots = .ok (reached, after) ∧
        ∀ handle, final.finish.1.contains handle = reached.contains handle) ∧
      final.finish.2.colors.isEmpty = true ∧ final.finish.2.worklist.toList = [] ∧
      final.finish.2.pending = 0 ∧
      final.finish.2.counts.scanned = final.finish.1.size ∧
      final.finish.2.counts.edges = graph.references final.finish.1.toList ∧
      ∀ budget, (∀ call, budgets call = budget) →
        final.finish.2.counts.steps = (final.finish.1.size + budget - 1) / budget := by
  obtain ⟨calls, handles, final, ends⟩ := (tracing_start marker).ends fit positive
    (Nat.lt_succ_self Handle.count)
  have complete := ends.complete
  refine ⟨calls, final, ends.ran, complete.verified, complete.contains_iff, fun other => ?_,
    rfl, rfl, rfl, complete.scanned_eq, complete.edges_eq, complete.steps_eq⟩
  obtain ⟨reached, after, ran, contains⟩ := other.trace_total fit
  refine ⟨reached, after, ran, fun handle => ?_⟩
  rw [Bool.eq_iff_iff, complete.contains_iff, contains]

/-- The first two objects reference each other and the first one itself. -/
def looped : Graph := fun handle =>
  if handle = .ofSlot 0 then [some (.ofSlot 1), none, some (.ofSlot 0)]
  else if handle = .ofSlot 1 then [some (.ofSlot 0), some (.ofSlot 2), some (.ofSlot 3)]
  else []

def withoutFourth : ScanLimit := fun handle => handle ≠ .ofSlot 3

/-- The first object twice, and one that the scan limit rejects. -/
def loopedRoots : List Handle := [.ofSlot 0, .ofSlot 3, .ofSlot 0]

theorem referencesFit_looped : looped.ReferencesFit withoutFourth loopedRoots := by
  have rooted : ∀ root ∈ loopedRoots, withoutFourth root = true →
      root ∈ [Handle.ofSlot 0, .ofSlot 1, .ofSlot 2] := by decide
  have closed : ∀ holder ∈ [Handle.ofSlot 0, .ofSlot 1, .ofSlot 2],
      ∀ target ∈ looped.targets holder, withoutFourth target = true →
        target ∈ [Handle.ofSlot 0, .ofSlot 1, .ofSlot 2] := by decide
  have known : ∀ handle, Reachable looped withoutFourth loopedRoots handle →
      handle ∈ [Handle.ofSlot 0, .ofSlot 1, .ofSlot 2] := by
    intro handle reached
    induction reached with
    | root member admitted => exact rooted _ member admitted
    | field _ named admitted ih => exact closed _ ih _ (Graph.mem_targets.mpr named) admitted
  intro handles distinct reached
  have most : looped.references handles ≤
      looped.references [Handle.ofSlot 0, .ofSlot 1, .ofSlot 2] :=
    Handle.sum_le_of_subset (fun _ => Nat.le_refl _) distinct
      fun handle member => known handle (reached handle member)
  exact Nat.lt_of_le_of_lt most (by decide)

theorem looped_traced : looped.ReferencesFit withoutFourth loopedRoots ∧
    (∀ call : Nat, 0 < call % 2 + 1) ∧
    ∃ (calls : Nat) (final : Marker),
      stepEach looped withoutFourth ((List.range (calls + 1)).map fun call => call % 2 + 1)
        (fresh.start loopedRoots withoutFourth) =
          .ok (List.replicate calls true ++ [false], final) ∧
      final.verify looped withoutFourth = .ok () ∧
      final.finish.1.contains (.ofSlot 2) = true := by
  have positive : ∀ call : Nat, 0 < call % 2 + 1 := fun call => Nat.succ_pos _
  obtain ⟨calls, final, ran, passed, answered, _⟩ :=
    tracing_equals_reachability fresh referencesFit_looped positive
  refine ⟨referencesFit_looped, positive, calls, final, ran, passed, (answered _).mpr ?_⟩
  have first : Reachable looped withoutFourth loopedRoots (.ofSlot 0) :=
    .root List.mem_cons_self rfl
  have second : Reachable looped withoutFourth loopedRoots (.ofSlot 1) :=
    .field first (by decide) rfl
  exact .field second (by decide) rfl

end Tenure.Marker
