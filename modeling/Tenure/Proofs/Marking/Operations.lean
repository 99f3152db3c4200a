import Tenure.Proofs.Marking.Mutation
import Tenure.Proofs.Marking.Schedule

/-!
# The worklist between operations

Traces may be started, stepped through, disturbed by shading, checked and given up in any
order, each operation with a graph, a scan limit and a budget of its own. Between any two of
them the worklist holds the gray objects, each once, and the count of pending ones is its
length. So no step counts below zero, and the list of the objects that a step blackens tells
why it ended.
-/

set_option autoImplicit false

namespace Tenure.Marker

/-- What can be asked of a marker. An operation sees the graph as it is by then. -/
inductive Operation where
  | start (roots : List Handle) (limit : ScanLimit)
  | step (graph : Graph) (limit : ScanLimit) (budget : Nat)
  | shade (handle : Handle)
  | verify (graph : Graph) (limit : ScanLimit)
  | trace (graph : Graph) (limit : ScanLimit) (roots : List Handle)
  | finish

/-- The operation neither begins nor ends a trace. -/
def Operation.continues : Operation → Bool
  | .step .. | .shade _ | .verify .. => true
  | .start .. | .trace .. | .finish => false

/-- The marker after an operation, whatever it answers. The check only looks at the marker. -/
def perform (marker : Marker) : Operation → Checked Marker
  | .start roots limit => .ok (marker.start roots limit)
  | .step graph limit budget => do
    let (_, marker) ← marker.step graph limit budget
    return marker
  | .shade handle => .ok (marker.shade handle).2
  | .verify _ _ => .ok marker
  | .trace graph limit roots => do
    let (_, marker) ← marker.trace graph limit roots
    return marker
  | .finish => .ok marker.finish.2

def performAll (marker : Marker) (operations : List Operation) : Checked Marker :=
  operations.foldlM perform marker

/-- These objects were turned black on the way from one marker to the other, and no others. -/
structure Blackens (marker : Marker) (handles : List Handle) (after : Marker) : Prop where
  distinct : handles.Nodup
  unscanned : ∀ handle ∈ handles, marker.colorOf handle ≠ .black
  black_iff : ∀ handle,
    after.colorOf handle = .black ↔ marker.colorOf handle = .black ∨ handle ∈ handles

/-- How a step ends that blackens these objects. -/
structure StepEnds (marker : Marker) (budget : Nat) (blackened : List Handle)
    (remaining : Bool) (after : Marker) : Prop where
  blackens : marker.Blackens blackened after
  length_le : blackened.length ≤ budget
  full : blackened.length = budget ∨ after.worklist.toList = []
  remaining_iff : remaining = true ↔ ∃ handle, after.colorOf handle = .gray

variable {graph : Graph} {limit : ScanLimit} {roots handles : List Handle}
  {marker after : Marker} {budget : Nat}

/-! ## Scans -/

theorem blackens_refl (marker : Marker) : marker.Blackens [] marker :=
  ⟨List.nodup_nil, by simp, by simp⟩

theorem Blackens.trans {middle : Marker} {others : List Handle}
    (first : marker.Blackens handles middle) (second : middle.Blackens others after) :
    marker.Blackens (handles ++ others) after where
  distinct := by
    refine first.distinct.append second.distinct fun handle member again => ?_
    exact second.unscanned handle again ((first.black_iff handle).mpr (.inr member))
  unscanned := by
    intro handle member black
    rcases List.mem_append.mp member with earlier | later
    · exact first.unscanned handle earlier black
    · exact second.unscanned handle later ((first.black_iff handle).mpr (.inl black))
  black_iff := by
    intro handle
    rw [second.black_iff, first.black_iff, List.mem_append, or_assoc]

/-- The object that is scanned was gray. It alone turns black. -/
theorem Queued.blackens_scan {handle : Handle} {rest : Marking.Worklist}
    (queued : marker.Queued []) (popped : marker.worklist.pop? = some (handle, rest))
    (ran : { marker with worklist := rest }.scan graph limit handle = .ok after) :
    marker.Blackens [handle] after := by
  obtain ⟨gray, _, colors⟩ := scan_spec queued popped ran
  refine ⟨List.nodup_singleton handle, fun other member => ?_, fun other => ?_⟩
  · rw [List.mem_singleton.mp member, gray]
    simp
  · rw [colors, List.mem_singleton]
    by_cases same : other = handle
    · simp [same]
    · rw [if_neg same]
      split
      · rename_i reached
        simp [same, reached.2.2]
      · simp [same]

theorem Queued.blackens_scanUpTo {done count : Nat} (queued : marker.Queued [])
    (ran : scanUpTo graph limit budget done marker = .ok (count, after)) :
    ∃ blackened, marker.Blackens blackened after ∧ after.Queued [] ∧
      count = done + blackened.length ∧ blackened.length ≤ budget ∧
      (blackened.length = budget ∨ after.worklist.toList = []) := by
  induction budget generalizing done marker with
  | zero =>
      simp only [scanUpTo, Except.ok.injEq, Prod.mk.injEq] at ran
      obtain ⟨rfl, rfl⟩ := ran
      exact ⟨[], blackens_refl marker, queued, rfl, Nat.le_refl 0, .inl rfl⟩
  | succ budget ih =>
      unfold scanUpTo at ran
      cases popped : marker.worklist.pop? with
      | none =>
          simp only [popped, Except.ok.injEq, Prod.mk.injEq] at ran
          obtain ⟨rfl, rfl⟩ := ran
          have empty := Marking.Worklist.pop?_eq_none_iff.mp popped
          exact ⟨[], blackens_refl marker, queued, rfl, Nat.zero_le _, .inr empty⟩
      | some entry =>
          obtain ⟨handle, rest⟩ := entry
          simp only [popped, Checked.bind_eq_ok_iff] at ran
          obtain ⟨next, scanned, ran⟩ := ran
          have first := queued.blackens_scan popped scanned
          obtain ⟨blackened, later, final, rfl, most, full⟩ :=
            ih (scan_spec queued popped scanned).2.1 ran
          refine ⟨handle :: blackened, first.trans later, final, ?_, ?_, ?_⟩
          · rw [List.length_cons, Nat.add_assoc, Nat.add_comm 1]
          · simpa using most
          · simpa using full

/-! ## Steps -/

theorem Queued.exists_gray_iff (queued : marker.Queued []) :
    (∃ handle, marker.colorOf handle = .gray) ↔ 0 < marker.pending := by
  rw [queued.pending_eq, List.length_pos_iff_exists_mem]
  exact exists_congr queued.gray_iff

/-- A step ends when its budget is used up or the worklist is empty. -/
theorem Queued.ends_of_step {remaining : Bool} (queued : marker.Queued [])
    (ran : marker.step graph limit budget = .ok (remaining, after)) :
    ∃ blackened, marker.StepEnds budget blackened remaining after := by
  have final := queued.step ran
  have answer := remaining_of_step ran
  unfold Marker.step at ran
  simp only [Checked.bind_eq_ok_iff, Checked.pure_eq_ok_iff, Prod.mk.injEq] at ran
  obtain ⟨⟨count, current⟩, scanned, _, rfl⟩ := ran
  obtain ⟨blackened, blackens, _, _, most, full⟩ := queued.blackens_scanUpTo scanned
  refine ⟨blackened, ?_, most, ?_, ?_⟩
  · split
    · exact ⟨blackens.distinct, blackens.unscanned, blackens.black_iff⟩
    · exact blackens
  · split
    · exact full
    · exact full
  · rw [answer, decide_eq_true_eq, final.exists_gray_iff]

/-- Steps that may scan leave gray objects behind only finitely often, whatever was shaded
before: each of them adds to the black objects. -/
theorem Queued.overflowsOnly_stepAll {attempts calls : Nat} (queued : marker.Queued [])
    (distinct : handles.Nodup) (black : ∀ handle ∈ handles, marker.colorOf handle = .black)
    (positive : 0 < budget) (enough : Handle.count < attempts + handles.length) :
    OverflowsOnly (stepAll graph limit budget attempts calls marker) := by
  induction attempts generalizing handles calls marker with
  | zero =>
      have bounded := Handle.length_le_count distinct
      omega
  | succ attempts ih =>
      unfold stepAll
      refine queued.overflowsOnly_step.bind fun answer ran => ?_
      obtain ⟨remaining, next⟩ := answer
      obtain ⟨blackened, ends⟩ := queued.ends_of_step ran
      cases remaining with
      | false => exact .inl ⟨_, rfl⟩
      | true =>
          have later := queued.step ran
          have busy : next.worklist.toList ≠ [] := by
            obtain ⟨handle, gray⟩ := ends.remaining_iff.mp rfl
            exact List.ne_nil_of_mem ((later.gray_iff handle).mp gray)
          have length := ends.full.resolve_right busy
          have distinct : (handles ++ blackened).Nodup := by
            refine distinct.append ends.blackens.distinct fun handle member again => ?_
            exact ends.blackens.unscanned handle again (black handle member)
          refine ih later distinct (fun handle member => ?_) ?_
          · rw [ends.blackens.black_iff]
            exact (List.mem_append.mp member).imp_left (black handle)
          · rw [List.length_append, length]
            omega

/-! ## Operations -/

theorem queued_finish (marker : Marker) : marker.finish.2.Queued [] :=
  (queued_reset marker).recount marker.counts

theorem overflowsOnly_trace (marker : Marker) :
    OverflowsOnly (marker.trace graph limit roots) := by
  obtain ⟨queued, _⟩ := marker.start_spec roots limit
  have drained : OverflowsOnly
      ((marker.start roots limit).drain graph limit Word.greatest) :=
    queued.overflowsOnly_stepAll List.nodup_nil (by simp) (by decide) (Nat.lt_succ_self _)
  exact drained.bind fun _ _ => .inl ⟨_, rfl⟩

theorem Queued.overflowsOnly_perform (queued : marker.Queued []) (operation : Operation) :
    OverflowsOnly (marker.perform operation) := by
  cases operation with
  | start => exact .inl ⟨_, rfl⟩
  | step => exact queued.overflowsOnly_step.bind fun _ _ => .inl ⟨_, rfl⟩
  | shade => exact .inl ⟨_, rfl⟩
  | verify => exact .inl ⟨_, rfl⟩
  | trace => exact marker.overflowsOnly_trace.bind fun _ _ => .inl ⟨_, rfl⟩
  | finish => exact .inl ⟨_, rfl⟩

/-- The worklist, the colors and the count agree after an operation if they did before. -/
theorem Queued.perform (queued : marker.Queued []) {operation : Operation}
    (ran : marker.perform operation = .ok after) : after.Queued [] := by
  cases operation with
  | start roots limit =>
      cases ran
      exact (marker.start_spec roots limit).1
  | step graph limit budget =>
      simp only [Marker.perform, Checked.bind_eq_ok_iff, Checked.pure_eq_ok_iff] at ran
      obtain ⟨⟨_, final⟩, stepped, rfl⟩ := ran
      exact queued.step stepped
  | shade handle =>
      cases ran
      exact queued.shade handle
  | verify =>
      cases ran
      exact queued
  | trace graph limit roots =>
      simp only [Marker.perform, Marker.trace, Checked.bind_eq_ok_iff,
        Checked.pure_eq_ok_iff] at ran
      obtain ⟨_, ⟨⟨_, marked⟩, _, rfl⟩, rfl⟩ := ran
      exact marked.queued_finish
  | finish =>
      cases ran
      exact marker.queued_finish

theorem Queued.colored_of_perform (queued : marker.Queued []) {operation : Operation}
    (continues : operation.continues = true) (ran : marker.perform operation = .ok after)
    {handle : Handle} (colored : marker.colorOf handle ≠ .white) :
    after.colorOf handle ≠ .white := by
  cases operation with
  | step graph limit budget =>
      simp only [Marker.perform, Checked.bind_eq_ok_iff, Checked.pure_eq_ok_iff] at ran
      obtain ⟨⟨_, final⟩, stepped, rfl⟩ := ran
      exact queued.colored_of_step stepped colored
  | shade shaded =>
      cases ran
      rw [colorOf_shade]
      split
      · simp
      · exact colored
  | verify =>
      cases ran
      exact colored
  | start => cases continues
  | trace => cases continues
  | finish => cases continues

/-! ## Runs -/

theorem Queued.performAll {operations : List Operation} (queued : marker.Queued [])
    (ran : marker.performAll operations = .ok after) : after.Queued [] :=
  Checked.foldlM_induction (fun _ current => current.Queued []) ran queued
    fun _ _ _ _ _ _ queued stepped => queued.perform stepped

theorem Queued.overflowsOnly_performAll (queued : marker.Queued [])
    (operations : List Operation) : OverflowsOnly (marker.performAll operations) := by
  induction operations generalizing marker with
  | nil => exact .inl ⟨marker, rfl⟩
  | cons operation rest ih =>
      rw [Marker.performAll, List.foldlM_cons]
      exact (queued.overflowsOnly_perform operation).bind fun _ ran => ih (queued.perform ran)

theorem Queued.colored_of_performAll {operations : List Operation} (queued : marker.Queued [])
    (within : ∀ operation ∈ operations, operation.continues = true)
    (ran : marker.performAll operations = .ok after) {handle : Handle}
    (colored : marker.colorOf handle ≠ .white) : after.colorOf handle ≠ .white := by
  have kept := Checked.foldlM_induction
    (fun _ (current : Marker) => current.Queued [] ∧ current.colorOf handle ≠ .white) ran
    ⟨queued, colored⟩ fun seen operation rest current next split holds stepped =>
      ⟨holds.1.perform stepped,
        holds.1.colored_of_perform (within operation (by simp [split])) stepped holds.2⟩
  exact kept.2

/-- The steps of a trace are steps like any other. -/
theorem performAll_of_stepAll {attempts calls total : Nat}
    (ran : stepAll graph limit budget attempts calls marker = .ok (total, after)) :
    ∃ steps, marker.performAll (List.replicate steps (.step graph limit budget)) = .ok after := by
  induction attempts generalizing calls marker with
  | zero => cases ran
  | succ attempts ih =>
      unfold stepAll at ran
      rw [Checked.bind_eq_ok_iff] at ran
      obtain ⟨⟨remaining, next⟩, stepped, ran⟩ := ran
      have first : marker.perform (.step graph limit budget) = .ok next :=
        Checked.bind_of_eq_ok stepped rfl
      cases remaining with
      | false =>
          cases ran
          exact ⟨1, Checked.bind_of_eq_ok first rfl⟩
      | true =>
          obtain ⟨steps, later⟩ := ih ran
          refine ⟨steps + 1, ?_⟩
          rw [List.replicate_succ, performAll, List.foldlM_cons]
          exact Checked.bind_of_eq_ok first later

/-- A whole trace is a start, some steps and the end of a trace. -/
theorem performAll_of_trace {reached : HandleSet}
    (ran : marker.trace graph limit roots = .ok (reached, after)) :
    ∃ steps marked, marker.performAll
        (.start roots limit :: List.replicate steps (.step graph limit Word.greatest)) =
          .ok marked ∧ marked.finish = (reached, after) := by
  rw [Marker.trace, Checked.bind_eq_ok_iff] at ran
  obtain ⟨⟨_, marked⟩, drained, ended⟩ := ran
  obtain ⟨steps, stepped⟩ := performAll_of_stepAll drained
  refine ⟨steps, marked, ?_, Checked.pure_eq_ok_iff.mp ended⟩
  rw [performAll, List.foldlM_cons]
  exact Checked.bind_of_eq_ok rfl stepped

/-- The three accounts of the gray objects agree. -/
structure Accounts (marker : Marker) : Prop where
  mem_iff : ∀ handle, handle ∈ marker.worklist.toList ↔ marker.colorOf handle = .gray
  distinct : marker.worklist.toList.Nodup
  pending_eq : marker.pending = marker.worklist.toList.length

/-- What holds between any two operations on a marker: the accounts agree, nothing that was
reached turns white before the trace ends, and a step ends for one of its two reasons. -/
structure Orderly (marker : Marker) : Prop where
  accounts : marker.Accounts
  reached : ∀ operations after, (∀ operation ∈ operations, operation.continues = true) →
    marker.performAll operations = .ok after →
      ∀ handle, marker.colorOf handle ≠ .white → after.colorOf handle ≠ .white
  steps : ∀ graph limit budget, OverflowsOnly (marker.step graph limit budget)
  ends : ∀ graph limit budget remaining after,
    marker.step graph limit budget = .ok (remaining, after) →
      ∃ blackened, marker.StepEnds budget blackened remaining after
  traces : ∀ graph limit roots reached after,
    marker.trace graph limit roots = .ok (reached, after) → ∃ steps marked,
      marker.performAll
        (.start roots limit :: List.replicate steps (.step graph limit Word.greatest)) =
          .ok marked ∧ marked.finish = (reached, after)

theorem Queued.orderly (queued : marker.Queued []) : marker.Orderly where
  accounts := ⟨fun handle => (queued.gray_iff handle).symm, queued.distinct, queued.pending_eq⟩
  reached := fun _ _ within ran _ colored => queued.colored_of_performAll within ran colored
  steps := fun _ _ _ => queued.overflowsOnly_step
  ends := fun _ _ _ _ _ ran => queued.ends_of_step ran
  traces := fun _ _ _ _ _ ran => performAll_of_trace ran

/-- Whatever is asked of a marker, its worklist holds the gray objects, each once, and no
count but that of the references can stop it. -/
theorem worklist_holds_gray (operations : List Operation) :
    OverflowsOnly (fresh.performAll operations) ∧
      ∀ marker, fresh.performAll operations = .ok marker → marker.Orderly := by
  have queued : fresh.Queued [] := queued_reset fresh
  exact ⟨queued.overflowsOnly_performAll operations, fun marker ran =>
    (queued.performAll ran).orderly⟩

/-- One trace is given up halfway and another one runs to its end. In the third one the first
object, which references itself, is scanned and then shaded. -/
def disturbedOperations : List Operation :=
  [.start [.ofSlot 0] .none, .step chain .none 2, .start [.ofSlot 3, .ofSlot 3] .none, .finish,
    .trace looped withoutFourth loopedRoots, .start loopedRoots withoutFourth,
    .step looped .none 1, .verify moved .none, .shade (.ofSlot 0)]

theorem worklist_holds_gray_when_disturbed : ∃ marker : Marker,
    fresh.performAll disturbedOperations = .ok marker ∧
      marker.worklist.toList = [.ofSlot 1, .ofSlot 0] ∧ marker.Orderly := by
  obtain ⟨marker, ran, queue⟩ := Checked.eq_ok_of_any
    (show (fresh.performAll disturbedOperations).toOption.any (fun marker =>
      marker.worklist.toList = [.ofSlot 1, .ofSlot 0]) = true by decide +kernel)
  exact ⟨marker, ran, of_decide_eq_true queue,
    (worklist_holds_gray disturbedOperations).2 marker ran⟩

end Tenure.Marker
