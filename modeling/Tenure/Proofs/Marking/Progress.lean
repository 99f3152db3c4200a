import Tenure.Proofs.Graph
import Tenure.Proofs.Marking.Trace

/-!
# A trace ends

Every scan turns a gray object black and no scan turns a black one back, so that a step
either scans as many objects as its budget allows or leaves the worklist empty. There are
finitely many handles, hence only finitely many steps leave gray objects behind. The list
of the scanned objects carries the argument: the counters are its length and the number
of references that its members hold.
-/

set_option autoImplicit false

namespace Tenure

/-- The references among the reachable objects can be counted in a word. -/
def Graph.ReferencesFit (graph : Graph) (limit : ScanLimit) (roots : List Handle) : Prop :=
  ∀ handles : List Handle, handles.Nodup →
    (∀ handle ∈ handles, Reachable graph limit roots handle) →
    graph.references handles < Word.limit

namespace Marker

variable {graph : Graph} {limit : ScanLimit} {roots handles : List Handle} {marker : Marker}

/-- The objects scanned so far, each once, and the references seen in them. -/
structure Tracing (graph : Graph) (limit : ScanLimit) (roots handles : List Handle)
    (marker : Marker) : Prop where
  traced : marker.Traced graph limit roots
  black_iff : ∀ handle, marker.colorOf handle = .black ↔ handle ∈ handles
  distinct : handles.Nodup
  edges_eq : marker.counts.edges = graph.references handles

theorem counts_reach (marker : Marker) (limit : ScanLimit) (handle : Handle) :
    (marker.reach limit handle).counts = marker.counts := by
  unfold reach
  split
  · rfl
  · rfl

theorem counts_start (marker : Marker) (roots : List Handle) (limit : ScanLimit) :
    (marker.start roots limit).counts = .zero := by
  have fold : ∀ (rest : List Handle) (current : Marker),
      (rest.foldl (fun marker root => marker.reach limit root) current).counts =
        current.counts := by
    intro rest
    induction rest with
    | nil => exact fun current => rfl
    | cons root rest ih =>
        intro current
        rw [List.foldl_cons, ih, counts_reach]
  exact fold roots marker.reset

theorem tracing_start (marker : Marker) :
    (marker.start roots limit).Tracing graph limit roots [] := by
  obtain ⟨_, colors⟩ := marker.start_spec roots limit
  refine ⟨traced_start marker, fun handle => ?_, List.nodup_nil, ?_⟩
  · rw [colors]
    split
    · simp
    · simp
  · rw [counts_start]
    rfl

theorem Tracing.recount (tracing : marker.Tracing graph limit roots handles)
    (steps scanned : Nat) :
    ({ marker with counts := { marker.counts with steps, scanned } } : Marker).Tracing
      graph limit roots handles :=
  ⟨tracing.traced.recount _, tracing.black_iff, tracing.distinct, tracing.edges_eq⟩

theorem Tracing.length_le (tracing : marker.Tracing graph limit roots handles) :
    handles.length ≤ Handle.count :=
  Handle.length_le_count tracing.distinct

/-! ## One scan -/

theorem Tracing.gray_of_pop {handle : Handle} {rest : Marking.Worklist}
    (tracing : marker.Tracing graph limit roots handles)
    (popped : marker.worklist.pop? = some (handle, rest)) : marker.colorOf handle = .gray := by
  rw [tracing.traced.queued.gray_iff, Marking.Worklist.toList_of_pop?_eq_some popped]
  exact List.mem_cons_self

theorem Tracing.distinct_append {handle : Handle} {rest : Marking.Worklist}
    (tracing : marker.Tracing graph limit roots handles)
    (popped : marker.worklist.pop? = some (handle, rest)) : (handles ++ [handle]).Nodup := by
  have unscanned : handle ∉ handles := by
    rw [← tracing.black_iff, tracing.gray_of_pop popped]
    simp
  exact tracing.distinct.append (List.nodup_singleton handle)
    (List.disjoint_singleton.mpr unscanned)

theorem Tracing.references_append (tracing : marker.Tracing graph limit roots handles)
    (handle : Handle) : graph.references (handles ++ [handle]) =
      marker.counts.edges + (graph.targets handle).length := by
  rw [Graph.references_append, tracing.edges_eq]
  simp [Graph.references]

theorem visitAll_total (marker : Marker) (targets : List Handle)
    (fits : marker.counts.edges + targets.length < Word.limit) :
    ∃ after, targets.foldlM (fun marker target => marker.visit limit target) marker = .ok after ∧
      after.counts = { marker.counts with edges := marker.counts.edges + targets.length } := by
  refine Checked.foldlM_total (fun seen (current : Marker) => current.counts =
    { marker.counts with edges := marker.counts.edges + seen.length }) rfl ?_
  intro seen target rest current split counts
  have room : current.counts.edges + 1 < Word.limit := by
    rw [counts]
    simp only [split, List.length_append, List.length_cons] at fits
    simp only
    omega
  have visited : current.visit limit target = .ok
      ({ current with
        counts := { current.counts with edges := current.counts.edges + 1 } }.reach
          limit target) := by
    rw [visit, Word.add_of_lt room]
    rfl
  refine ⟨_, visited, ?_⟩
  rw [counts_reach]
  simp [counts, Nat.add_assoc]

/-- What one scan does if the references in the object can be counted. -/
theorem Tracing.scan_of_lt {handle : Handle} {rest : Marking.Worklist}
    (tracing : marker.Tracing graph limit roots handles)
    (popped : marker.worklist.pop? = some (handle, rest))
    (room : marker.counts.edges + (graph.targets handle).length < Word.limit) :
    ∃ after, { marker with worklist := rest }.scan graph limit handle = .ok after ∧
      after.Tracing graph limit roots (handles ++ [handle]) ∧
      after.counts.steps = marker.counts.steps ∧
      after.counts.scanned = marker.counts.scanned := by
  have queued := tracing.traced.queued
  obtain ⟨visited, walked, counts⟩ := visitAll_total
    { marker with worklist := rest, pending := marker.pending - 1 } (graph.targets handle) room
  have ran : { marker with worklist := rest }.scan graph limit handle =
      .ok { visited with colors := visited.colors.insert handle .black } := by
    simp only [scan, Checked.bind_eq_ok_iff, Checked.pure_eq_ok_iff]
    exact ⟨_, Word.sub_of_le (queued.pending_pos popped), visited, walked, rfl⟩
  refine ⟨_, ran, ⟨tracing.traced.scan popped ran, fun other => ?_, tracing.distinct_append popped,
    ?_⟩, ?_, ?_⟩
  · obtain ⟨_, _, colors⟩ := scan_spec queued popped ran
    rw [colors, List.mem_append, List.mem_singleton, ← tracing.black_iff]
    by_cases same : other = handle
    · simp [same]
    · by_cases turns : some other ∈ graph handle ∧ limit other = true ∧
          marker.colorOf other = .white
      · simp [same, turns]
      · simp [same, turns]
  · rw [tracing.references_append]
    simp [counts]
  · simp [counts]
  · simp [counts]

theorem Tracing.scan_total {handle : Handle} {rest : Marking.Worklist}
    (tracing : marker.Tracing graph limit roots handles)
    (fit : graph.ReferencesFit limit roots)
    (popped : marker.worklist.pop? = some (handle, rest)) :
    ∃ after, { marker with worklist := rest }.scan graph limit handle = .ok after ∧
      after.Tracing graph limit roots (handles ++ [handle]) ∧
      after.counts.steps = marker.counts.steps ∧
      after.counts.scanned = marker.counts.scanned := by
  refine tracing.scan_of_lt popped ?_
  rw [← tracing.references_append]
  refine fit _ (tracing.distinct_append popped) fun other member => ?_
  apply tracing.traced.sound
  rcases List.mem_append.mp member with scanned | last
  · simp [(tracing.black_iff other).mpr scanned]
  · simp [List.mem_singleton.mp last, tracing.gray_of_pop popped]

/-! ## Steps -/

theorem Tracing.scanUpTo_total (budget done : Nat)
    (tracing : marker.Tracing graph limit roots handles)
    (fit : graph.ReferencesFit limit roots) :
    ∃ more after, scanUpTo graph limit budget done marker = .ok (done + more.length, after) ∧
      after.Tracing graph limit roots (handles ++ more) ∧ more.length ≤ budget ∧
      (more.length = budget ∨ after.worklist.toList = []) ∧
      after.counts.steps = marker.counts.steps ∧
      after.counts.scanned = marker.counts.scanned := by
  induction budget generalizing done handles marker with
  | zero => exact ⟨[], marker, rfl, by simpa using tracing, Nat.le_refl 0, .inl rfl, rfl, rfl⟩
  | succ budget ih =>
      unfold scanUpTo
      cases popped : marker.worklist.pop? with
      | none =>
          have empty := Marking.Worklist.pop?_eq_none_iff.mp popped
          exact ⟨[], marker, rfl, by simpa using tracing, Nat.zero_le _, .inr empty, rfl, rfl⟩
      | some entry =>
          obtain ⟨handle, rest⟩ := entry
          obtain ⟨next, scanned, later, steps, count⟩ := tracing.scan_total fit popped
          obtain ⟨more, after, ran, final, most, full, laterSteps, laterCount⟩ :=
            ih (done + 1) later
          refine ⟨handle :: more, after, ?_, by simpa using final, ?_, ?_,
            laterSteps.trans steps, laterCount.trans count⟩
          · refine Checked.bind_of_eq_ok scanned ?_
            rw [ran, List.length_cons, Nat.add_assoc, Nat.add_comm 1]
          · simpa using most
          · simpa using full

/-- What one step does: it scans `more`, as many as its budget allows or all that are left. -/
structure Advances (graph : Graph) (limit : ScanLimit) (roots handles : List Handle)
    (budget : Nat) (marker : Marker) (more : List Handle) (remaining : Bool)
    (after : Marker) : Prop where
  ran : marker.step graph limit budget = .ok (remaining, after)
  tracing : after.Tracing graph limit roots (handles ++ more)
  length_le : more.length ≤ budget
  full : remaining = true → more.length = budget
  scanned_eq : after.counts.scanned = marker.counts.scanned + more.length
  steps_eq : after.counts.steps = marker.counts.steps + if more = [] then 0 else 1

theorem Tracing.step_total (tracing : marker.Tracing graph limit roots handles)
    (fit : graph.ReferencesFit limit roots) (budget : Nat) :
    ∃ more remaining after,
      marker.Advances graph limit roots handles budget more remaining after := by
  obtain ⟨more, after, scanned, later, most, full, steps, count⟩ :=
    tracing.scanUpTo_total budget 0 fit
  rw [Nat.zero_add] at scanned
  have busy : decide (after.pending > 0) = true → more.length = budget := by
    intro pending
    rw [decide_eq_true_eq, later.traced.queued.pending_eq] at pending
    rcases full with full | empty
    · exact full
    · rw [empty] at pending
      cases pending
  cases more with
  | nil =>
      refine ⟨[], _, after, ?_, later, most, busy, count, steps⟩
      simp only [step, scanned]
      rfl
  | cons first others =>
      refine ⟨first :: others, _, _, ?_, later.recount (after.counts.steps + 1)
        (after.counts.scanned + (first :: others).length), most, busy, ?_, ?_⟩
      · simp only [step, scanned]
        rfl
      · simp [count]
      · simp [steps]

end Marker

end Tenure
