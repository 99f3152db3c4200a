import Tenure.Proofs.Directory.Lookup
import Tenure.Proofs.Marking.Trace

/-!
# Marking while the graph changes

Between the steps of a trace a mutator may store fields. If each store that leaves a
black object with an admitted white target is reported by shading, no step meets such a
pair, and the trace ends with everything that is reachable in the graph as it is by then.

Without reports the check of the invariant tells what was lost. It fails exactly where
such a pair exists, and a trace that passes it has missed nothing.
-/

set_option autoImplicit false

namespace Tenure

/-- The graph after all fields of one object were stored anew. -/
def Graph.replace (graph : Graph) (holder : Handle) (fields : List (Option Handle)) : Graph :=
  fun handle => if handle = holder then fields else graph handle

namespace Marker

variable {limit : ScanLimit} {roots : List Handle} {graph : Graph} {marker after : Marker}

/-! ## Shading -/

def shadeAll (marker : Marker) (handles : List Handle) : Marker :=
  handles.foldl (fun marker handle => (marker.shade handle).2) marker

theorem colorOf_shade (marker : Marker) (handle other : Handle) :
    (marker.shade handle).2.colorOf other =
      if other = handle then .gray else marker.colorOf other := by
  unfold shade
  split
  · rename_i gray
    split
    · rename_i same
      rw [same]
      exact gray
    · rfl
  · exact colorOf_gray marker handle other

theorem colorOf_shadeAll (marker : Marker) (handles : List Handle) (other : Handle) :
    (marker.shadeAll handles).colorOf other =
      if other ∈ handles then .gray else marker.colorOf other := by
  induction handles generalizing marker with
  | nil => simp [shadeAll]
  | cons handle rest ih =>
      have later := ih (marker.shade handle).2
      rw [colorOf_shade] at later
      by_cases same : other = handle
      · simpa [shadeAll, same] using later
      · simpa [shadeAll, same] using later

theorem Queued.shade (queued : marker.Queued []) (handle : Handle) :
    (marker.shade handle).2.Queued [] := by
  unfold Marker.shade
  split
  · exact queued
  · rename_i idle
    exact queued.gray idle

theorem Queued.shadeAll (queued : marker.Queued []) (handles : List Handle) :
    (marker.shadeAll handles).Queued [] := by
  induction handles generalizing marker with
  | nil => exact queued
  | cons handle rest ih => exact ih (queued.shade handle)

/-! ## What a trace keeps whatever happens to the graph -/

/-- The gray objects are accounted for and the admitted roots were reached. -/
structure Rooted (limit : ScanLimit) (roots : List Handle) (marker : Marker) : Prop where
  queued : marker.Queued []
  reached : ∀ root ∈ roots, limit root = true → marker.colorOf root ≠ .white

theorem rooted_start (marker : Marker) : (marker.start roots limit).Rooted limit roots := by
  obtain ⟨queued, colors⟩ := marker.start_spec roots limit
  refine ⟨queued, fun root member admitted => ?_⟩
  simp [colors, member, admitted]

/-- A step may run with a scan limit of its own. -/
theorem Rooted.step {scope : ScanLimit} {budget : Nat} {remaining : Bool}
    (rooted : marker.Rooted limit roots)
    (ran : marker.step graph scope budget = .ok (remaining, after)) :
    after.Rooted limit roots where
  queued := rooted.queued.step ran
  reached := fun root member admitted =>
    rooted.queued.colored_of_step ran (rooted.reached root member admitted)

theorem Rooted.shadeAll (rooted : marker.Rooted limit roots) (handles : List Handle) :
    (marker.shadeAll handles).Rooted limit roots := by
  refine ⟨rooted.queued.shadeAll handles, fun root member admitted => ?_⟩
  rw [colorOf_shadeAll]
  split
  · simp
  · exact rooted.reached root member admitted

theorem Rooted.contains_of_reachable (rooted : marker.Rooted limit roots)
    (closed : marker.Closed graph limit) (finished : ∀ handle, marker.colorOf handle ≠ .gray)
    {handle : Handle} (reached : Reachable graph limit roots handle) :
    marker.finish.1.contains handle = true :=
  (contains_finish rooted.queued).mpr
    (colored_of_reachable rooted.reached closed finished reached)

/-! ## Reported stores -/

/-- Shading these objects reports a store: where the holder is black, itself or each
admitted white object among the new fields is shaded. -/
def Reports (marker : Marker) (limit : ScanLimit) (holder : Handle)
    (fields : List (Option Handle)) (shaded : List Handle) : Prop :=
  marker.colorOf holder = .black → holder ∈ shaded ∨
    ∀ target, some target ∈ fields → limit target = true →
      marker.colorOf target = .white → target ∈ shaded

/-- The graphs and markers that steps and reported stores lead to after a start. -/
inductive Interleaves (limit : ScanLimit) (roots : List Handle) : Graph → Marker → Prop where
  | start (graph : Graph) (marker : Marker) :
      Interleaves limit roots graph (marker.start roots limit)
  | step {graph : Graph} {marker after : Marker} {budget : Nat} {remaining : Bool} :
      Interleaves limit roots graph marker →
      marker.step graph limit budget = .ok (remaining, after) →
      Interleaves limit roots graph after
  | store {graph : Graph} {marker : Marker} (holder : Handle) (fields : List (Option Handle))
      (shaded : List Handle) :
      Interleaves limit roots graph marker → marker.Reports limit holder fields shaded →
      Interleaves limit roots (graph.replace holder fields) (marker.shadeAll shaded)

theorem Closed.store {holder : Handle} {fields : List (Option Handle)} {shaded : List Handle}
    (closed : marker.Closed graph limit) (reports : marker.Reports limit holder fields shaded) :
    (marker.shadeAll shaded).Closed (graph.replace holder fields) limit := by
  intro other black target field admitted white
  rw [colorOf_shadeAll] at black white
  split at black
  · cases black
  · rename_i unshaded
    split at white
    · cases white
    · rename_i lost
      simp only [Graph.replace] at field
      split at field
      · -- The holder itself: both ways to report the store exclude the pair.
        rename_i same
        subst same
        cases reports black with
        | inl regrayed => exact unshaded regrayed
        | inr marked => exact lost (marked target field admitted white)
      · exact closed other black target field admitted white

theorem Interleaves.rooted (run : Interleaves limit roots graph marker) :
    marker.Rooted limit roots := by
  induction run with
  | start => exact rooted_start _
  | step _ ran ih => exact ih.step ran
  | store _ _ shaded _ _ ih => exact ih.shadeAll shaded

theorem Interleaves.closed (run : Interleaves limit roots graph marker) :
    marker.Closed graph limit := by
  induction run with
  | start => exact closed_start _ _ _ _
  | step before ran ih => exact ih.step before.rooted.queued ran
  | store _ _ _ _ reports ih => exact ih.store reports

/-- With reports, no step meets a black object that references an admitted white one, and
once a step finds the worklist empty the check passes and nothing reachable is missing. -/
theorem reported_marking_complete (run : Interleaves limit roots graph marker) :
    marker.Closed graph limit ∧ ∀ budget, OverflowsOnly (marker.step graph limit budget) ∧
      ∀ after, marker.step graph limit budget = .ok (false, after) →
        after.verify graph limit = .ok () ∧
          ∀ handle, Reachable graph limit roots handle →
            after.finish.1.contains handle = true := by
  refine ⟨run.closed, fun budget => ⟨run.rooted.queued.overflowsOnly_step, fun after ran => ?_⟩⟩
  have later := Interleaves.step run ran
  have finished := later.rooted.queued.worklist_of_step ran
  refine ⟨verify_eq_ok_iff.mpr later.closed, fun handle reached => ?_⟩
  exact later.rooted.contains_of_reachable later.closed
    (later.rooted.queued.ne_gray_of_finished finished) reached

/-- The first object references the second one and that references the third one. -/
def chain : Graph := fun handle =>
  if handle = .ofSlot 0 then [some (.ofSlot 1)]
  else if handle = .ofSlot 1 then [some (.ofSlot 2)]
  else []

/-- The third object is moved to the first one. -/
def moved : Graph := chain.replace (.ofSlot 0) [some (.ofSlot 2)]

/-- The move comes after the scan of the first object, and before the scan of the second
one the path that it would have followed is cut. -/
theorem moved_object_reached : ∃ marker after : Marker,
    Interleaves .none [.ofSlot 0] (moved.replace (.ofSlot 1) []) marker ∧
      marker.step (moved.replace (.ofSlot 1) []) .none 5 = .ok (false, after) ∧
      after.verify (moved.replace (.ofSlot 1) []) .none = .ok () ∧
      after.finish.1.contains (.ofSlot 2) = true := by
  have ran : ((do
      let first ← (fresh.start [.ofSlot 0] .none).step chain .none 1
      ((first.2.shadeAll [.ofSlot 0]).shadeAll []).step (moved.replace (.ofSlot 1) []) .none 5) :
        Checked (Bool × Marker)).toOption.any (fun result => !result.1) = true := by
    decide +kernel
  obtain ⟨⟨remaining, after⟩, ran, ended⟩ := Checked.eq_ok_of_any ran
  simp only [Checked.bind_eq_ok_iff, Bool.not_eq_true'] at ran ended
  subst ended
  obtain ⟨⟨_, marked⟩, first, second⟩ := ran
  have regrayed : Interleaves .none [.ofSlot 0] moved (marked.shadeAll [.ofSlot 0]) :=
    .store _ _ _ (.step (.start chain fresh) first) fun _ => .inl List.mem_cons_self
  have cut := Interleaves.store (.ofSlot 1) [] [] regrayed
    fun _ => .inr fun target named => by cases named
  obtain ⟨passed, complete⟩ := ((reported_marking_complete cut).2 5).2 after second
  have root : Reachable (moved.replace (.ofSlot 1) []) .none [.ofSlot 0] (.ofSlot 0) :=
    .root List.mem_cons_self rfl
  exact ⟨_, after, cut, second, passed, complete _ (.field root (by decide) rfl)⟩

/-! ## Unreported changes -/

/-- The graphs and markers that steps, shading and changes nobody reports lead to after a
start. -/
inductive Drifts (limit : ScanLimit) (roots : List Handle) : Graph → Marker → Prop where
  | start (graph : Graph) (marker : Marker) :
      Drifts limit roots graph (marker.start roots limit)
  | step {graph : Graph} {marker after : Marker} {scope : ScanLimit} {budget : Nat}
      {remaining : Bool} :
      Drifts limit roots graph marker →
      marker.step graph scope budget = .ok (remaining, after) → Drifts limit roots graph after
  | shade {graph : Graph} {marker : Marker} (handle : Handle) :
      Drifts limit roots graph marker → Drifts limit roots graph (marker.shade handle).2
  | change {graph : Graph} {marker : Marker} (other : Graph) :
      Drifts limit roots graph marker → Drifts limit roots other marker

theorem Drifts.rooted (run : Drifts limit roots graph marker) : marker.Rooted limit roots := by
  induction run with
  | start => exact rooted_start _
  | step _ ran ih => exact ih.step ran
  | shade handle _ ih => exact ih.shadeAll [handle]
  | change _ _ ih => exact ih

/-- A black object references an admitted white one. -/
structure Violates (marker : Marker) (graph : Graph) (limit : ScanLimit)
    (holder target : Handle) : Prop where
  black : marker.colorOf holder = .black
  field : some target ∈ graph holder
  admitted : limit target = true
  white : marker.colorOf target = .white

theorem closed_iff : marker.Closed graph limit ↔
    ∀ holder target, ¬ marker.Violates graph limit holder target := by
  constructor
  · intro closed holder target violates
    exact closed holder violates.black target violates.field violates.admitted violates.white
  · intro clean holder black target field admitted white
    exact clean holder target ⟨black, field, admitted, white⟩

theorem violates_of_violation? {holder target : Handle}
    (found : marker.violation? graph limit = some (holder, target)) :
    marker.Violates graph limit holder target := by
  unfold violation? at found
  obtain ⟨⟨first, color⟩, member, found⟩ := List.exists_of_findSome?_eq_some found
  simp only at found
  split at found
  · rename_i black
    subst black
    obtain ⟨second, white, same⟩ := Option.map_eq_some_iff.mp found
    cases same
    have field := List.mem_of_find?_eq_some white
    have chosen := List.find?_some white
    rw [Bool.and_eq_true, decide_eq_true_eq] at chosen
    exact ⟨mem_toList_black.mp member, Graph.mem_targets.mp field, chosen.1, chosen.2⟩
  · cases found

theorem verify_eq_error {failure : Failure} (failed : marker.verify graph limit = .error failure) :
    ∃ holder target, failure = .invariantViolation holder target ∧
      marker.Violates graph limit holder target := by
  unfold verify at failed
  cases found : marker.violation? graph limit with
  | none =>
      rw [found] at failed
      cases failed
  | some pair =>
      rw [found] at failed
      cases failed
      exact ⟨pair.1, pair.2, rfl, violates_of_violation? found⟩

theorem get?_sweep_of_reached {reached : HandleSet} {directory swept : Directory} {tally : Tally}
    {candidates : List Handle} {handle : Handle} (kept : reached.contains handle = true)
    (ran : directory.sweep (candidates.filter fun other => !reached.contains other) =
      .ok (tally, swept)) : swept.get? handle = directory.get? handle := by
  rw [Directory.get?_sweep ran, if_neg]
  intro dead
  rw [List.mem_filter, kept] at dead
  cases dead.2

/-- The check of the invariant is sound and complete. A trace that ends with it has
reached everything reachable, so that a sweep of the others frees nothing reachable. -/
theorem verify_decides_violations (run : Drifts limit roots graph marker) :
    ((∃ failure, marker.verify graph limit = .error failure) ↔
      ∃ holder target, marker.Violates graph limit holder target) ∧
    (∀ failure, marker.verify graph limit = .error failure → ∃ holder target,
      failure = .invariantViolation holder target ∧
        marker.Violates graph limit holder target) ∧
    ((∀ handle, marker.colorOf handle ≠ .gray) → marker.verify graph limit = .ok () →
      ∀ handle, Reachable graph limit roots handle →
        marker.finish.1.contains handle = true ∧
        ∀ (directory swept : Directory) (tally : Tally) (candidates : List Handle),
          directory.sweep (candidates.filter fun other => !marker.finish.1.contains other) =
            .ok (tally, swept) →
          swept.get? handle = directory.get? handle) := by
  refine ⟨⟨?_, ?_⟩, fun failure => verify_eq_error, ?_⟩
  · rintro ⟨failure, failed⟩
    obtain ⟨holder, target, _, violates⟩ := verify_eq_error failed
    exact ⟨holder, target, violates⟩
  · rintro ⟨holder, target, violates⟩
    cases checked : marker.verify graph limit with
    | error failure => exact ⟨failure, rfl⟩
    | ok =>
        have closed := verify_eq_ok_iff.mp checked
        exact absurd violates (closed_iff.mp closed holder target)
  · intro finished passed handle reached
    have kept := run.rooted.contains_of_reachable (verify_eq_ok_iff.mp passed) finished reached
    exact ⟨kept, fun directory swept tally candidates ran => get?_sweep_of_reached kept ran⟩

/-- The same move, which nobody reports. -/
theorem unreported_move_violates : ∃ marker : Marker,
    Drifts .none [.ofSlot 0] moved marker ∧
      marker.Violates moved .none (.ofSlot 0) (.ofSlot 2) ∧
      ∃ failure, marker.verify moved .none = .error failure := by
  have ran : ((fresh.start [.ofSlot 0] .none).step chain .none 1).toOption.any (fun result =>
      decide (result.2.colorOf (.ofSlot 0) = .black ∧
        result.2.colorOf (.ofSlot 2) = .white)) = true := by
    decide +kernel
  obtain ⟨⟨remaining, marked⟩, ran, colors⟩ := Checked.eq_ok_of_any ran
  obtain ⟨black, white⟩ := of_decide_eq_true colors
  have changed : Drifts .none [.ofSlot 0] moved marked :=
    .change _ (.step (.start chain fresh) ran)
  have violates : marked.Violates moved .none (.ofSlot 0) (.ofSlot 2) :=
    ⟨black, by decide, rfl, white⟩
  exact ⟨marked, changed, violates,
    (verify_decides_violations changed).1.mpr ⟨_, _, violates⟩⟩

end Marker

end Tenure
