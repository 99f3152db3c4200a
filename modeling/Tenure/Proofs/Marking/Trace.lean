import Tenure.Proofs.Marking.Colors

/-!
# A trace reaches what is reachable

While the graph stays as it is, every step of a trace keeps that the admitted roots
were reached, that only reachable objects were, and that no black object references
an admitted white one. When nothing is gray any more the reached objects are the
reachable ones, and the check for broken invariants passes.
-/

set_option autoImplicit false

namespace Tenure.Marker

variable {graph : Graph} {limit : ScanLimit} {roots : List Handle}

/-- The progress of a trace over a graph that does not change. -/
structure Traced (graph : Graph) (limit : ScanLimit) (roots : List Handle)
    (marker : Marker) : Prop where
  queued : marker.Queued []
  rooted : ∀ root ∈ roots, limit root = true → marker.colorOf root ≠ .white
  sound : ∀ handle, marker.colorOf handle ≠ .white → Reachable graph limit roots handle
  closed : ∀ holder, marker.colorOf holder = .black → ∀ target, some target ∈ graph holder →
    limit target = true → marker.colorOf target ≠ .white

theorem traced_start (marker : Marker) : (marker.start roots limit).Traced graph limit roots := by
  obtain ⟨queued, colors⟩ := marker.start_spec roots limit
  refine ⟨queued, fun root member admitted => ?_, fun handle colored => ?_,
    closed_start marker roots graph limit⟩
  · simp [colors, member, admitted]
  · rw [colors] at colored
    split at colored
    · rename_i rooted
      exact .root rooted.1 rooted.2
    · simp at colored

theorem Traced.recount {marker : Marker} (traced : marker.Traced graph limit roots)
    (counts : TraceCounts) : ({ marker with counts } : Marker).Traced graph limit roots :=
  ⟨traced.queued.recount counts, traced.rooted, traced.sound, traced.closed⟩

theorem Traced.scan {marker after : Marker} {handle : Handle} {rest : Marking.Worklist}
    (traced : marker.Traced graph limit roots)
    (popped : marker.worklist.pop? = some (handle, rest))
    (ran : { marker with worklist := rest }.scan graph limit handle = .ok after) :
    after.Traced graph limit roots := by
  obtain ⟨gray, queued, colors⟩ := scan_spec traced.queued popped ran
  have handleReached := traced.sound handle (by simp [gray])
  refine ⟨queued, fun root member admitted => ?_, fun other colored => ?_,
    Closed.scan traced.closed traced.queued popped ran⟩
  · exact colored_of_scan traced.queued popped ran (traced.rooted root member admitted)
  · rw [colors] at colored
    split at colored
    · rename_i same
      rw [same]
      exact handleReached
    · split at colored
      · rename_i referenced
        exact .field handleReached referenced.1 referenced.2.1
      · exact traced.sound other colored

theorem Traced.step {budget : Nat} {marker after : Marker} {remaining : Bool}
    (traced : marker.Traced graph limit roots)
    (ran : marker.step graph limit budget = .ok (remaining, after)) :
    after.Traced graph limit roots ∧ (remaining = false → after.worklist.toList = []) := by
  have after_traced : after.Traced graph limit roots :=
    step_induction (fun current => current.Traced graph limit roots) ran traced
      (fun current _ _ traced => traced.recount _)
      (fun current next handle rest traced popped ran => traced.scan popped ran)
  refine ⟨after_traced, fun finished => ?_⟩
  exact after_traced.queued.worklist_of_step (finished ▸ ran)

theorem Traced.stepAll {budget attempts calls count : Nat} {marker after : Marker}
    (traced : marker.Traced graph limit roots)
    (ran : Marker.stepAll graph limit budget attempts calls marker = .ok (count, after)) :
    after.Traced graph limit roots ∧ after.worklist.toList = [] := by
  induction attempts generalizing calls marker with
  | zero => simp [Marker.stepAll] at ran
  | succ attempts ih =>
      unfold Marker.stepAll at ran
      simp only [Checked.bind_eq_ok_iff] at ran
      obtain ⟨⟨remaining, current⟩, stepped, ran⟩ := ran
      obtain ⟨current_traced, finished⟩ := traced.step stepped
      cases remaining with
      | true => exact ih current_traced ran
      | false =>
          simp only [Bool.false_eq_true, ↓reduceIte, Checked.pure_eq_ok_iff,
            Prod.mk.injEq] at ran
          exact ran.2 ▸ ⟨current_traced, finished rfl⟩

/-- Where nothing is gray any more, a set of reached objects without references to white
ones holds everything reachable. -/
theorem colored_of_reachable {marker : Marker}
    (rooted : ∀ root ∈ roots, limit root = true → marker.colorOf root ≠ .white)
    (closed : marker.Closed graph limit) (finished : ∀ handle, marker.colorOf handle ≠ .gray)
    {handle : Handle} (reached : Reachable graph limit roots handle) :
    marker.colorOf handle ≠ .white := by
  induction reached with
  | root member admitted => exact rooted _ member admitted
  | @field holder target _ field admitted ih =>
      have black : marker.colorOf holder = .black := by
        cases color : marker.colorOf holder with
        | white => exact absurd color ih
        | gray => exact absurd color (finished holder)
        | black => rfl
      exact closed holder black target field admitted

theorem Queued.ne_gray_of_finished {marker : Marker} (queued : marker.Queued [])
    (finished : marker.worklist.toList = []) (handle : Handle) :
    marker.colorOf handle ≠ .gray := by
  intro gray
  rw [queued.gray_iff, finished] at gray
  cases gray

/-- Once the worklist is empty, exactly the reachable objects were reached. -/
theorem Traced.colored_iff {marker : Marker} (traced : marker.Traced graph limit roots)
    (finished : marker.worklist.toList = []) {handle : Handle} :
    marker.colorOf handle ≠ .white ↔ Reachable graph limit roots handle :=
  ⟨traced.sound handle, colored_of_reachable traced.rooted traced.closed
    (traced.queued.ne_gray_of_finished finished)⟩

theorem mem_toList_black {marker : Marker} {holder : Handle} :
    (holder, Color.black) ∈ marker.colors.toList ↔ marker.colorOf holder = .black := by
  rw [Std.TreeMap.mem_toList_iff_getElem?_eq_some, colorOf, Std.TreeMap.getD_eq_getD_getElem?]
  cases marker.colors[holder]? with
  | none => simp
  | some color => simp

theorem whiteTarget?_eq_none_iff {marker : Marker} {holder : Handle} :
    marker.whiteTarget? graph limit holder = none ↔ ∀ target, some target ∈ graph holder →
      limit target = true → marker.colorOf target ≠ .white := by
  simp [whiteTarget?]

/-- The check passes exactly where no black object references an admitted white one. -/
theorem verify_eq_ok_iff {marker : Marker} :
    marker.verify graph limit = .ok () ↔ marker.Closed graph limit := by
  have clean : marker.violation? graph limit = none ↔ marker.Closed graph limit := by
    unfold violation?
    rw [List.findSome?_eq_none_iff]
    constructor
    · intro unfound holder black
      have passed := unfound (holder, .black) (mem_toList_black.mpr black)
      simp only [↓reduceIte, Option.map_eq_none_iff] at passed
      exact whiteTarget?_eq_none_iff.mp passed
    · rintro closed ⟨holder, color⟩ member
      simp only
      split
      · rename_i black
        subst black
        rw [Option.map_eq_none_iff, whiteTarget?_eq_none_iff]
        exact closed holder (mem_toList_black.mp member)
      · rfl
  rw [← clean, verify]
  cases marker.violation? graph limit with
  | none => simp
  | some pair => simp

theorem contains_finish {marker : Marker} (queued : marker.Queued []) {handle : Handle} :
    marker.finish.1.contains handle = true ↔ marker.colorOf handle ≠ .white := by
  simp only [finish]
  rw [HandleSet.contains_of, Std.TreeMap.mem_keys, queued.stored]

/-- A trace that ends finds no broken invariant and answers exactly the reachable
objects. -/
theorem traceInSteps_eq_ok {marker after : Marker} {budget : Nat} {verified : Bool}
    {answer : Answer HandleSet}
    (ran : marker.traceInSteps graph limit roots budget verified = .ok (answer, after)) :
    ∃ reached, answer = .ok reached ∧
      ∀ handle, reached.contains handle = true ↔ Reachable graph limit roots handle := by
  unfold traceInSteps drain at ran
  rw [Checked.bind_eq_ok_iff] at ran
  obtain ⟨⟨calls, marked⟩, drained, answered⟩ := ran
  obtain ⟨traced, finished⟩ := (traced_start marker).stepAll drained
  have passed : (if verified = true then marked.verify graph limit else .ok ()) = .ok () := by
    split
    · exact verify_eq_ok_iff.mpr traced.closed
    · rfl
  simp only [passed, Checked.pure_eq_ok_iff, Prod.mk.injEq] at answered
  refine ⟨marked.finish.1, answered.1.symm, fun handle => ?_⟩
  rw [contains_finish traced.queued, traced.colored_iff finished]

end Tenure.Marker
