import Tenure.Proofs.Collector.Steps
import Tenure.Proofs.Heap.Accounting

/-!
# Nothing is lost or counted twice

An object that was placed is live or was counted as reclaimed, and its bytes are in use or
were counted as reclaimed. Each step of a collector keeps both balances, so they hold after
every run that begins without objects.
-/

set_option autoImplicit false

namespace Tenure.Collector

variable {Source Policy Hearer : Type} [MemorySource Source]
  {collector after : Collector Source Policy Hearer} {sizes later : List Nat}

/-! ## The heap of a run -/

theorem attains_of_step {placed : Option Nat} (step : Step collector placed after) :
    collector.heap.Attains after.heap := by
  cases step with
  | queued requests => exact .refl _
  | placed ran => exact .one (.allocate ran)
  | stored ran => exact .one (.store ran)
  | @minor roots outcome heap next threshold _ ran tuned _ =>
      rw [tuned]
      have cycle : collector.heap.Attains heap := .one (.minorCycle ran)
      exact cycle.trans (.one (.setThreshold threshold))
  | major ran _ => exact .one (.majorCycle ran)
  | gaveUp allocationFailures => exact .refl _

theorem Steps.attains (steps : Steps collector sizes after) :
    collector.heap.Attains after.heap :=
  steps.invariant (fun current => collector.heap.Attains current.heap)
    (fun step attains => attains.trans (attains_of_step step)) (.refl _)

/-! ## The balances -/

/-- What was placed is there or was counted as reclaimed. -/
structure Balanced (sizes : List Nat) (collector : Collector Source Policy Hearer) : Prop where
  aligned : ∀ size ∈ sizes, alignSize size = .ok (roundedSize size)
  objects : sizes.length = collector.heap.directory.live + collector.totals.objectsReclaimed
  bytes : (sizes.map roundedSize).sum =
    collector.heap.directory.bytes + collector.totals.bytesReclaimed

namespace Balanced

omit [MemorySource Source] in
/-- A cycle counts what it takes away. -/
theorem of_reclaims {kind : CycleKind} {objects bytes : Nat} {failed : Bool}
    (balanced : collector.Balanced sizes) (counts : collector.Ran kind objects bytes failed after)
    (reclaims : collector.heap.Reclaims after.heap objects bytes) : after.Balanced sizes := by
  refine ⟨balanced.aligned, ?_, ?_⟩
  · rw [balanced.objects, counts.totals.objectsReclaimed, ← reclaims.objects]
    omega
  · rw [balanced.bytes, counts.totals.bytesReclaimed, ← reclaims.bytes]
    omega

theorem step (balanced : collector.Balanced sizes) (sound : collector.heap.Sound)
    {placed : Option Nat} (step : Step collector placed after) :
    after.Balanced (sizes ++ placed.toList) := by
  cases step with
  | queued requests =>
      rw [Option.toList_none, List.append_nil]
      exact ⟨balanced.aligned, balanced.objects, balanced.bytes⟩
  | placed ran =>
      rcases sound.counts_of_tryAllocate ran with ⟨unplaced, _⟩ | ⟨_, aligned, live, bytes⟩
      · cases unplaced
      · refine ⟨fun other member => ?_, ?_, ?_⟩
        · rcases List.mem_append.mp member with earlier | latest
          · exact balanced.aligned other earlier
          · rw [List.mem_singleton.mp latest]
            exact aligned
        · simp only [Option.toList_some, List.length_append, List.length_singleton,
            balanced.objects, live]
          omega
        · simp only [Option.toList_some, List.map_append, List.map_cons, List.map_nil,
            List.sum_append, List.sum_singleton, balanced.bytes, bytes]
          omega
  | stored ran =>
      rw [Option.toList_none, List.append_nil]
      have same := sound.counts_of_store ran
      exact ⟨balanced.aligned, balanced.objects.trans (congrArg (· + _) same.objects.symm),
        balanced.bytes.trans (congrArg (· + _) same.bytes.symm)⟩
  | @minor roots outcome heap next threshold _ ran tuned counts =>
      rw [Option.toList_none, List.append_nil]
      refine balanced.of_reclaims counts ?_
      rw [tuned]
      exact (sound.reclaims_of_minorCycle ran).setThreshold threshold
  | major ran counts =>
      rw [Option.toList_none, List.append_nil]
      exact balanced.of_reclaims counts (sound.reclaims_of_majorCycle ran)
  | gaveUp allocationFailures =>
      rw [Option.toList_none, List.append_nil]
      exact ⟨balanced.aligned, balanced.objects, balanced.bytes⟩

theorem steps (balanced : collector.Balanced sizes) (attainable : collector.heap.Attainable)
    (steps : Steps collector later after) : after.Balanced (sizes ++ later) := by
  induction steps generalizing sizes with
  | refl collector =>
      rw [List.append_nil]
      exact balanced
  | cons step _ ih =>
      rw [← List.append_assoc]
      exact ih (balanced.step attainable.sound step) (attainable.attains (attains_of_step step))

end Balanced

omit [MemorySource Source] in
theorem balanced_ofHeap {heap : Heap Source} (sound : heap.Sound) (empty : heap.directory.live = 0)
    (policy : Policy) (hearer : Hearer) : (ofHeap heap policy hearer).Balanced [] := by
  refine ⟨fun size member => absurd member List.not_mem_nil, ?_, ?_⟩
  · rw [List.length_nil]
    exact empty.symm
  · exact (sound.consistent.directory.bytes_eq_zero empty).symm

/-- Every object that was placed is in the heap or was reclaimed, and so are its bytes. -/
structure Accounted (sizes : List Nat) (totals : Totals) (usage : Usage) : Prop where
  aligned : ∀ size ∈ sizes, alignSize size = .ok (roundedSize size)
  objects : sizes.length = usage.liveObjects + totals.objectsReclaimed
  bytes : (sizes.map roundedSize).sum =
    usage.edenUsed + usage.survivorUsed + usage.oldUsed + totals.bytesReclaimed

theorem accounted_of_steps {heap : Heap Source} (attainable : heap.Attainable)
    (empty : heap.directory.live = 0) {policy : Policy} {hearer : Hearer}
    (steps : Steps (ofHeap heap policy hearer) sizes after) :
    Accounted sizes after.currentTotals after.heap.usage := by
  have balanced := (balanced_ofHeap attainable.sound empty policy hearer).steps attainable steps
  have reached := attainable.attains steps.attains
  refine ⟨balanced.aligned, balanced.objects, ?_⟩
  rw [← reached.rotating.bytes_eq reached.sound.consistent]
  exact balanced.bytes

/-! ## Runs that tell what they place -/

section Runs

variable [PromotionPolicy Policy] [Listener Hearer] {Roots : Type} [RootProvider Roots]

/-- An operation, with the size that was asked for if it placed an object. -/
def performSized (collector : Collector Source Policy Hearer) :
    Operation Roots → Checked (Option Nat × Collector Source Policy Hearer)
  | .allocate roots size fieldCount => do
    let (answer, collector) ← collector.allocate roots size fieldCount
    return (placedSize size answer, collector)
  | operation => do
    let collector ← collector.perform operation
    return (none, collector)

/-- The sizes of all objects that the operations placed, and the collector after them. -/
def performAllSized (collector : Collector Source Policy Hearer) :
    List (Operation Roots) → Checked (List Nat × Collector Source Policy Hearer)
  | [] => return ([], collector)
  | operation :: operations => do
    let (placed, middle) ← collector.performSized operation
    let (sizes, after) ← middle.performAllSized operations
    return (placed.toList ++ sizes, after)

omit [MemorySource Source] [PromotionPolicy Policy] [Listener Hearer] in
private theorem unsized_forgets (run : Checked (Collector Source Policy Hearer)) :
    (do
      let collector ← run
      return ((none : Option Nat), collector)).map Prod.snd = run := by
  cases run with
  | error trap => rfl
  | ok collector => rfl

theorem performSized_forgets (collector : Collector Source Policy Hearer)
    (operation : Operation Roots) :
    (collector.performSized operation).map Prod.snd = collector.perform operation := by
  cases operation with
  | allocate roots size fieldCount =>
      simp only [performSized, perform]
      cases collector.allocate roots size fieldCount with
      | error trap => rfl
      | ok allocated => rfl
  | _ => exact unsized_forgets _

/-- A run that tells what it places is the run. -/
theorem performAllSized_forgets (collector : Collector Source Policy Hearer)
    (operations : List (Operation Roots)) :
    (collector.performAllSized operations).map Prod.snd = collector.performAll operations := by
  induction operations generalizing collector with
  | nil => rfl
  | cons operation rest ih =>
      unfold performAll
      rw [List.foldlM_cons, ← performSized_forgets]
      unfold performAllSized
      cases collector.performSized operation with
      | error trap => rfl
      | ok performed =>
          obtain ⟨placed, middle⟩ := performed
          have later := ih middle
          unfold performAll at later
          simp only [bind, Except.bind, Except.map] at later ⊢
          rw [← later]
          cases middle.performAllSized rest with
          | error trap => rfl
          | ok followed => rfl

theorem steps_of_perform {operation : Operation Roots}
    (unplaced : ∀ roots size fieldCount, operation ≠ .allocate roots size fieldCount)
    (ran : collector.perform operation = .ok after) : Steps collector [] after := by
  cases operation with
  | allocate roots size fieldCount => exact absurd rfl (unplaced roots size fieldCount)
  | store holder index value =>
      simp only [perform, Checked.bind_eq_ok_iff, Checked.pure_eq_ok_iff] at ran
      obtain ⟨⟨_, _⟩, stored, rfl⟩ := ran
      exact steps_of_store stored
  | load holder index =>
      simp only [perform, Checked.pure_eq_ok_iff] at ran
      subst ran
      exact .refl collector
  | request kind =>
      simp only [perform, Checked.bind_eq_ok_iff, Checked.pure_eq_ok_iff] at ran
      obtain ⟨⟨_, _⟩, requested, rfl⟩ := ran
      exact steps_of_request requested
  | runPending roots =>
      simp only [perform, Checked.bind_eq_ok_iff, Checked.pure_eq_ok_iff] at ran
      obtain ⟨⟨_, _⟩, served, rfl⟩ := ran
      exact steps_of_runPending served
  | collect kind roots =>
      simp only [perform, Checked.bind_eq_ok_iff, Checked.pure_eq_ok_iff] at ran
      obtain ⟨⟨_, _⟩, collected, rfl⟩ := ran
      exact steps_of_collect collected

theorem steps_of_performSized {operation : Operation Roots} {placed : Option Nat}
    (ran : collector.performSized operation = .ok (placed, after)) :
    Steps collector placed.toList after := by
  cases operation with
  | allocate roots size fieldCount =>
      simp only [performSized, Checked.bind_eq_ok_iff, Checked.pure_eq_ok_iff,
        Prod.mk.injEq] at ran
      obtain ⟨⟨_, _⟩, allocated, rfl, rfl⟩ := ran
      exact steps_of_allocate allocated
  | _ =>
      simp only [performSized, Checked.bind_eq_ok_iff, Checked.pure_eq_ok_iff,
        Prod.mk.injEq] at ran
      obtain ⟨_, performed, rfl, rfl⟩ := ran
      exact steps_of_perform (by simp) performed

theorem exists_steps_of_perform {operation : Operation Roots}
    (ran : collector.perform operation = .ok after) : ∃ sizes, Steps collector sizes after := by
  rw [← performSized_forgets, Checked.map_eq_ok_iff] at ran
  obtain ⟨⟨placed, _⟩, sized, rfl⟩ := ran
  exact ⟨placed.toList, steps_of_performSized sized⟩

theorem steps_of_performAllSized {operations : List (Operation Roots)}
    (ran : collector.performAllSized operations = .ok (sizes, after)) :
    Steps collector sizes after := by
  induction operations generalizing collector sizes with
  | nil =>
      simp only [performAllSized, Checked.pure_eq_ok_iff, Prod.mk.injEq] at ran
      obtain ⟨rfl, rfl⟩ := ran
      exact .refl collector
  | cons operation rest ih =>
      simp only [performAllSized, Checked.bind_eq_ok_iff, Checked.pure_eq_ok_iff,
        Prod.mk.injEq] at ran
      obtain ⟨⟨_, middle⟩, performed, ⟨_, _⟩, followed, rfl, rfl⟩ := ran
      exact (steps_of_performSized performed).trans (ih followed)

/-- A run from an empty heap tells the sizes that account for its objects. -/
theorem accounted_of_performAll {heap : Heap Source} (attainable : heap.Attainable)
    (empty : heap.directory.live = 0) {policy : Policy} {hearer : Hearer}
    {operations : List (Operation Roots)}
    (ran : (ofHeap heap policy hearer).performAll operations = .ok after) :
    ∃ sizes, (ofHeap heap policy hearer).performAllSized operations = .ok (sizes, after) ∧
      Accounted sizes after.currentTotals after.heap.usage := by
  rw [← performAllSized_forgets, Checked.map_eq_ok_iff] at ran
  obtain ⟨⟨sizes, _⟩, sized, rfl⟩ := ran
  exact ⟨sizes, sized, accounted_of_steps attainable empty (steps_of_performAllSized sized)⟩

end Runs

end Tenure.Collector
