import Tenure.Collector.Allocation
import Tenure.Collector.Service
import Tenure.Proofs.Checked

/-!
# Runs with a record

The running program does not see the cycles that the collector runs for it. Here every
operation is told with the moments that its heap went through: the cycles with their
roots, the new objects, the stores. Without the record it is the same operation.
-/

set_option autoImplicit false

namespace Tenure

/-- What the heap of a collector goes through. A cycle has the roots that were given to
it, live or not, and the heaps before and after it. -/
inductive Moment (Source : Type) where
  | cycle (before : Heap Source) (roots : List Handle) (after : Heap Source)
  | allocated (handle : Handle) (fieldCount : Nat)
  | stored (holder : Handle) (index : Nat) (value : Option Handle)

namespace Collector

/-- What can be asked of a collector. -/
inductive Operation (Roots : Type) where
  | allocate (roots : Roots) (size fieldCount : Nat)
  | store (holder : Handle) (index : Nat) (value : Option Handle)
  | load (holder : Handle) (index : Nat)
  | request (kind : CycleKind)
  | runPending (roots : Roots)
  | collect (kind : CycleKind) (roots : Roots)

variable {Source Policy Hearer Value : Type}

/-- What an operation answers, the collector after it, and the moments of its heap. -/
abbrev Recorded (Source Policy Hearer Value : Type) : Type :=
  Value × Collector Source Policy Hearer × List (Moment Source)

/-- An operation without its record. -/
def forget (run : Checked (Recorded Source Policy Hearer Value)) :
    Checked (Value × Collector Source Policy Hearer) := do
  let (value, collector, _) ← run
  return (value, collector)

def tryAllocateRecorded (collector : Collector Source Policy Hearer) (size fieldCount : Nat) :
    Checked (Recorded Source Policy Hearer (Option Handle)) := do
  let (placed, after) ← collector.tryAllocate size fieldCount
  return (placed, after, placed.toList.map fun handle => .allocated handle fieldCount)

def storeRecorded (collector : Collector Source Policy Hearer) (holder : Handle) (index : Nat)
    (value : Option Handle) : Checked (Recorded Source Policy Hearer (Answer Unit)) := do
  let (answer, after) ← collector.store holder index value
  match answer with
  | .error failure => return (.error failure, after, [])
  | .ok () => return (.ok (), after, [.stored holder index value])

section Cycles

variable [MemorySource Source] [PromotionPolicy Policy] [Listener Hearer]
variable {Roots : Type} [RootProvider Roots]

/-- Runs a cycle, unless the collector refuses everything. -/
def collectRecorded (collector : Collector Source Policy Hearer) (kind : CycleKind)
    (roots : Roots) : Checked (Recorded Source Policy Hearer (Answer CycleReport)) := do
  let (answer, after) ← collector.collect kind roots
  match collector.checkPoison with
  | .error _ => return (answer, after, [])
  | .ok () =>
    return (answer, after, [.cycle collector.heap (RootProvider.current roots) after.heap])

def allocateAfterMajorRecorded (collector : Collector Source Policy Hearer) (roots : Roots)
    (size fieldCount : Nat) : Checked (Recorded Source Policy Hearer (Answer Handle)) := do
  match ← collector.collectRecorded .major roots with
  | (.error failure, collector, cycle) => return (.error failure, collector, cycle)
  | (.ok _, collector, cycle) =>
    match ← collector.tryAllocateRecorded size fieldCount with
    | (some handle, collector, placed) => return (.ok handle, collector, cycle ++ placed)
    | (none, collector, placed) =>
      let (failure, collector) ← collector.giveUp size
      return (.error failure, collector, cycle ++ placed)

def allocateAfterMinorRecorded (collector : Collector Source Policy Hearer) (roots : Roots)
    (size fieldCount : Nat) : Checked (Recorded Source Policy Hearer (Answer Handle)) := do
  match ← collector.collectRecorded .minor roots with
  | (.error failure, collector, cycle) => return (.error failure, collector, cycle)
  | (.ok _, collector, cycle) =>
    match ← collector.tryAllocateRecorded size fieldCount with
    | (some handle, collector, placed) => return (.ok handle, collector, cycle ++ placed)
    | (none, collector, placed) =>
      let (answer, collector, later) ← collector.allocateAfterMajorRecorded roots size fieldCount
      return (answer, collector, cycle ++ placed ++ later)

def allocateRecorded (collector : Collector Source Policy Hearer) (roots : Roots)
    (size fieldCount : Nat) : Checked (Recorded Source Policy Hearer (Answer Handle)) := do
  match collector.checkPoison with
  | .error failure => return (.error failure, collector, [])
  | .ok () =>
    match ← collector.tryAllocateRecorded size fieldCount with
    | (some handle, collector, placed) => return (.ok handle, collector, placed)
    | (none, collector, placed) =>
      let (answer, collector, later) ← collector.allocateAfterMinorRecorded roots size fieldCount
      return (answer, collector, placed ++ later)

def serveRecorded (roots : Roots) :
    (remaining : Nat) → (reports : List CycleReport) → Collector Source Policy Hearer →
    Checked (Recorded Source Policy Hearer (Answer (List CycleReport)))
  | 0, _, _ => .error .addOverflow
  | remaining + 1, reports, collector =>
    match collector.requests.take with
    | (none, _) => .ok (.ok reports.reverse, collector, [])
    | (some kind, requests) => do
      match ← { collector with requests }.collectRecorded kind roots with
      | (.error failure, collector, cycle) => return (.error failure, collector, cycle)
      | (.ok report, collector, cycle) =>
        let (answer, collector, later) ←
          serveRecorded roots remaining (report :: reports) collector
        return (answer, collector, cycle ++ later)

def runPendingRecorded (collector : Collector Source Policy Hearer) (roots : Roots) :
    Checked (Recorded Source Policy Hearer (Answer (List CycleReport))) :=
  match collector.checkPoison with
  | .error failure => .ok (.error failure, collector, [])
  | .ok () => serveRecorded roots (Word.limit - collector.cycle + 1) [] collector

/-! ## Runs -/

def perform (collector : Collector Source Policy Hearer) :
    Operation Roots → Checked (Collector Source Policy Hearer)
  | .allocate roots size fieldCount => do
    let (_, collector) ← collector.allocate roots size fieldCount
    return collector
  | .store holder index value => do
    let (_, collector) ← collector.store holder index value
    return collector
  | .load _ _ => return collector
  | .request kind => do
    let (_, collector) ← collector.request kind
    return collector
  | .runPending roots => do
    let (_, collector) ← collector.runPending roots
    return collector
  | .collect kind roots => do
    let (_, collector) ← collector.collect kind roots
    return collector

def performRecorded (collector : Collector Source Policy Hearer) :
    Operation Roots → Checked (Collector Source Policy Hearer × List (Moment Source))
  | .allocate roots size fieldCount => do
    let (_, collector, moments) ← collector.allocateRecorded roots size fieldCount
    return (collector, moments)
  | .store holder index value => do
    let (_, collector, moments) ← collector.storeRecorded holder index value
    return (collector, moments)
  | .load _ _ => return (collector, [])
  | .request kind => do
    let (_, collector) ← collector.request kind
    return (collector, [])
  | .runPending roots => do
    let (_, collector, moments) ← collector.runPendingRecorded roots
    return (collector, moments)
  | .collect kind roots => do
    let (_, collector, moments) ← collector.collectRecorded kind roots
    return (collector, moments)

def performAll (collector : Collector Source Policy Hearer) (operations : List (Operation Roots)) :
    Checked (Collector Source Policy Hearer) :=
  operations.foldlM perform collector

/-- The collector after several operations, and all moments of its heap in their order. -/
def performAllRecorded (collector : Collector Source Policy Hearer) :
    List (Operation Roots) → Checked (Collector Source Policy Hearer × List (Moment Source))
  | [] => return (collector, [])
  | operation :: operations => do
    let (middle, moments) ← collector.performRecorded operation
    let (after, later) ← middle.performAllRecorded operations
    return (after, moments ++ later)

end Cycles

/-! ## The record changes nothing -/

section Forget

variable {First Second : Type}

/-- Forgetting goes along with the steps of an operation. -/
private theorem forget_bind {run : Checked (Recorded Source Policy Hearer First)}
    {bare : Checked (First × Collector Source Policy Hearer)}
    {next : Recorded Source Policy Hearer First → Checked (Recorded Source Policy Hearer Second)}
    {bareNext : First × Collector Source Policy Hearer →
      Checked (Second × Collector Source Policy Hearer)}
    (same : forget run = bare)
    (nextSame : ∀ value collector moments,
      forget (next (value, collector, moments)) = bareNext (value, collector)) :
    forget (run >>= next) = bare >>= bareNext := by
  subst same
  cases run with
  | error trap => rfl
  | ok recorded =>
      obtain ⟨value, collector, moments⟩ := recorded
      exact nextSame value collector moments

private theorem forget_rerecord {run : Checked (Recorded Source Policy Hearer First)}
    (moments : List (Moment Source) → List (Moment Source)) :
    forget (do
      let (value, collector, later) ← run
      return (value, collector, moments later)) = forget run := by
  cases run with
  | error trap => rfl
  | ok recorded => rfl

theorem forget_eq_ok_iff {run : Checked (Recorded Source Policy Hearer Value)} {value : Value}
    {collector : Collector Source Policy Hearer} :
    forget run = .ok (value, collector) ↔ ∃ moments, run = .ok (value, collector, moments) := by
  cases run with
  | error trap => simp [forget, bind, Except.bind]
  | ok recorded => simp [forget, bind, Except.bind, pure, Except.pure, Prod.ext_iff]

end Forget

theorem forget_tryAllocateRecorded (collector : Collector Source Policy Hearer)
    (size fieldCount : Nat) :
    forget (collector.tryAllocateRecorded size fieldCount) =
      collector.tryAllocate size fieldCount := by
  unfold forget tryAllocateRecorded
  cases collector.tryAllocate size fieldCount with
  | error trap => rfl
  | ok placed => rfl

theorem forget_storeRecorded (collector : Collector Source Policy Hearer) (holder : Handle)
    (index : Nat) (value : Option Handle) :
    forget (collector.storeRecorded holder index value) = collector.store holder index value := by
  unfold forget storeRecorded
  cases collector.store holder index value with
  | error trap => rfl
  | ok stored =>
      obtain ⟨answer, after⟩ := stored
      cases answer with
      | error failure => rfl
      | ok done => rfl

section Cycles

variable [MemorySource Source] [PromotionPolicy Policy] [Listener Hearer]
variable {Roots : Type} [RootProvider Roots]

theorem forget_collectRecorded (collector : Collector Source Policy Hearer) (kind : CycleKind)
    (roots : Roots) :
    forget (collector.collectRecorded kind roots) = collector.collect kind roots := by
  unfold forget collectRecorded
  cases collector.collect kind roots with
  | error trap => rfl
  | ok collected =>
      cases collector.checkPoison with
      | error failure => rfl
      | ok _ => rfl

theorem forget_allocateAfterMajorRecorded (collector : Collector Source Policy Hearer)
    (roots : Roots) (size fieldCount : Nat) :
    forget (collector.allocateAfterMajorRecorded roots size fieldCount) =
      collector.allocateAfterMajor roots size fieldCount := by
  refine forget_bind (forget_collectRecorded collector .major roots) fun report middle cycle => ?_
  cases report with
  | error failure => rfl
  | ok report =>
      refine forget_bind (forget_tryAllocateRecorded middle size fieldCount)
        fun placed last placing => ?_
      cases placed with
      | some handle => rfl
      | none =>
          simp only
          cases last.giveUp size with
          | error trap => rfl
          | ok gaveUp => rfl

theorem forget_allocateAfterMinorRecorded (collector : Collector Source Policy Hearer)
    (roots : Roots) (size fieldCount : Nat) :
    forget (collector.allocateAfterMinorRecorded roots size fieldCount) =
      collector.allocateAfterMinor roots size fieldCount := by
  refine forget_bind (forget_collectRecorded collector .minor roots) fun report middle cycle => ?_
  cases report with
  | error failure => rfl
  | ok report =>
      refine forget_bind (forget_tryAllocateRecorded middle size fieldCount)
        fun placed last placing => ?_
      cases placed with
      | some handle => rfl
      | none =>
          exact (forget_rerecord (cycle ++ placing ++ ·)).trans
            (forget_allocateAfterMajorRecorded last roots size fieldCount)

theorem forget_allocateRecorded (collector : Collector Source Policy Hearer) (roots : Roots)
    (size fieldCount : Nat) :
    forget (collector.allocateRecorded roots size fieldCount) =
      collector.allocate roots size fieldCount := by
  unfold allocateRecorded allocate
  cases collector.checkPoison with
  | error failure => rfl
  | ok _ =>
      refine forget_bind (forget_tryAllocateRecorded collector size fieldCount)
        fun placed last placing => ?_
      cases placed with
      | some handle => rfl
      | none =>
          exact (forget_rerecord (placing ++ ·)).trans
            (forget_allocateAfterMinorRecorded last roots size fieldCount)

theorem forget_serveRecorded (roots : Roots) (remaining : Nat) (reports : List CycleReport)
    (collector : Collector Source Policy Hearer) :
    forget (serveRecorded roots remaining reports collector) =
      serve roots remaining reports collector := by
  induction remaining generalizing reports collector with
  | zero => rfl
  | succ remaining ih =>
      unfold serveRecorded serve
      obtain ⟨kind, requests⟩ := collector.requests.take
      cases kind with
      | none => rfl
      | some kind =>
          refine forget_bind (forget_collectRecorded { collector with requests } kind roots)
            fun report middle cycle => ?_
          cases report with
          | error failure => rfl
          | ok report =>
              exact (forget_rerecord (cycle ++ ·)).trans (ih (report :: reports) middle)

theorem forget_runPendingRecorded (collector : Collector Source Policy Hearer) (roots : Roots) :
    forget (collector.runPendingRecorded roots) = collector.runPending roots := by
  unfold runPendingRecorded runPending
  cases collector.checkPoison with
  | error failure => rfl
  | ok _ => exact forget_serveRecorded roots _ [] collector

/-- An operation with a record is the operation. -/
theorem performRecorded_forgets (collector : Collector Source Policy Hearer)
    (operation : Operation Roots) :
    (collector.performRecorded operation).map Prod.fst = collector.perform operation := by
  cases operation with
  | allocate roots size fieldCount =>
      simp only [performRecorded, perform]
      rw [← forget_allocateRecorded]
      cases collector.allocateRecorded roots size fieldCount with
      | error trap => rfl
      | ok recorded => rfl
  | store holder index value =>
      simp only [performRecorded, perform]
      rw [← forget_storeRecorded]
      cases collector.storeRecorded holder index value with
      | error trap => rfl
      | ok recorded => rfl
  | load holder index => rfl
  | request kind =>
      simp only [performRecorded, perform]
      cases collector.request kind with
      | error trap => rfl
      | ok requested => rfl
  | runPending roots =>
      simp only [performRecorded, perform]
      rw [← forget_runPendingRecorded]
      cases collector.runPendingRecorded roots with
      | error trap => rfl
      | ok recorded => rfl
  | collect kind roots =>
      simp only [performRecorded, perform]
      rw [← forget_collectRecorded]
      cases collector.collectRecorded kind roots with
      | error trap => rfl
      | ok recorded => rfl

theorem performAllRecorded_forgets (collector : Collector Source Policy Hearer)
    (operations : List (Operation Roots)) :
    (collector.performAllRecorded operations).map Prod.fst = collector.performAll operations := by
  induction operations generalizing collector with
  | nil => rfl
  | cons operation rest ih =>
      unfold performAll
      rw [List.foldlM_cons, ← performRecorded_forgets]
      unfold performAllRecorded
      cases collector.performRecorded operation with
      | error trap => rfl
      | ok performed =>
          obtain ⟨middle, moments⟩ := performed
          have later := ih middle
          unfold performAll at later
          simp only [bind, Except.bind, Except.map] at later ⊢
          rw [← later]
          cases middle.performAllRecorded rest with
          | error trap => rfl
          | ok followed => rfl

section Runs

variable {collector after : Collector Source Policy Hearer}

/-- What an allocation answers, it answers with some record. -/
theorem allocate_eq_ok_iff {roots : Roots} {size fieldCount : Nat} {answer : Answer Handle} :
    collector.allocate roots size fieldCount = .ok (answer, after) ↔
      ∃ moments, collector.allocateRecorded roots size fieldCount =
        .ok (answer, after, moments) := by
  rw [← forget_allocateRecorded, forget_eq_ok_iff]

/-- Where a run leads, it leads with some record. -/
theorem performAll_eq_ok_iff {operations : List (Operation Roots)} :
    collector.performAll operations = .ok after ↔
      ∃ moments, collector.performAllRecorded operations = .ok (after, moments) := by
  rw [← performAllRecorded_forgets, Checked.map_eq_ok_iff]
  constructor
  · rintro ⟨⟨_, moments⟩, ran, rfl⟩
    exact ⟨moments, ran⟩
  · rintro ⟨moments, ran⟩
    exact ⟨(after, moments), ran, rfl⟩

end Runs

/-! ## How an allocation goes -/

/-- An allocation alternates attempts and cycles until it places the object, is refused or
gives up. -/
inductive Allocation (roots : Roots) (size fieldCount : Nat) :
    Collector Source Policy Hearer → Answer Handle → Collector Source Policy Hearer →
    List (Moment Source) → Prop where
  | refused {collector : Collector Source Policy Hearer} (failure : Failure) :
      Allocation roots size fieldCount collector (.error failure) collector []
  | gaveUp {collector after : Collector Source Policy Hearer} {failure : Failure}
      (ran : collector.giveUp size = .ok (failure, after)) :
      Allocation roots size fieldCount collector (.error failure) after []
  | placed {collector after : Collector Source Policy Hearer} {handle : Handle}
      {placing : List (Moment Source)}
      (ran : collector.tryAllocateRecorded size fieldCount = .ok (some handle, after, placing)) :
      Allocation roots size fieldCount collector (.ok handle) after placing
  | crowded {collector middle after : Collector Source Policy Hearer} {answer : Answer Handle}
      {placing later : List (Moment Source)}
      (ran : collector.tryAllocateRecorded size fieldCount = .ok (none, middle, placing))
      (rest : Allocation roots size fieldCount middle answer after later) :
      Allocation roots size fieldCount collector answer after (placing ++ later)
  | cycled {collector middle after : Collector Source Policy Hearer} {answer : Answer Handle}
      {kind : CycleKind} {report : Answer CycleReport} {cycle later : List (Moment Source)}
      (ran : collector.collectRecorded kind roots = .ok (report, middle, cycle))
      (rest : Allocation roots size fieldCount middle answer after later) :
      Allocation roots size fieldCount collector answer after (cycle ++ later)

variable {collector after : Collector Source Policy Hearer} {roots : Roots}
  {size fieldCount : Nat} {answer : Answer Handle} {moments : List (Moment Source)}

theorem allocation_of_allocateAfterMajor
    (ran : collector.allocateAfterMajorRecorded roots size fieldCount =
      .ok (answer, after, moments)) :
    Allocation roots size fieldCount collector answer after moments := by
  unfold allocateAfterMajorRecorded at ran
  rw [Checked.bind_eq_ok_iff] at ran
  obtain ⟨⟨report, middle, cycle⟩, cycled, ran⟩ := ran
  cases report with
  | error failure =>
      simp only [Checked.pure_eq_ok_iff, Prod.mk.injEq] at ran
      obtain ⟨rfl, rfl, rfl⟩ := ran
      rw [← List.append_nil cycle]
      exact .cycled cycled (.refused failure)
  | ok report =>
      rw [Checked.bind_eq_ok_iff] at ran
      obtain ⟨⟨placed, last, placing⟩, attempt, ran⟩ := ran
      cases placed with
      | some handle =>
          simp only [Checked.pure_eq_ok_iff, Prod.mk.injEq] at ran
          obtain ⟨rfl, rfl, rfl⟩ := ran
          exact .cycled cycled (.placed attempt)
      | none =>
          simp only [Checked.bind_eq_ok_iff, Checked.pure_eq_ok_iff, Prod.mk.injEq] at ran
          obtain ⟨⟨failure, final⟩, gaveUp, rfl, rfl, rfl⟩ := ran
          rw [← List.append_nil placing]
          exact .cycled cycled (.crowded attempt (.gaveUp gaveUp))

theorem allocation_of_allocateAfterMinor
    (ran : collector.allocateAfterMinorRecorded roots size fieldCount =
      .ok (answer, after, moments)) :
    Allocation roots size fieldCount collector answer after moments := by
  unfold allocateAfterMinorRecorded at ran
  rw [Checked.bind_eq_ok_iff] at ran
  obtain ⟨⟨report, middle, cycle⟩, cycled, ran⟩ := ran
  cases report with
  | error failure =>
      simp only [Checked.pure_eq_ok_iff, Prod.mk.injEq] at ran
      obtain ⟨rfl, rfl, rfl⟩ := ran
      rw [← List.append_nil cycle]
      exact .cycled cycled (.refused failure)
  | ok report =>
      rw [Checked.bind_eq_ok_iff] at ran
      obtain ⟨⟨placed, last, placing⟩, attempt, ran⟩ := ran
      cases placed with
      | some handle =>
          simp only [Checked.pure_eq_ok_iff, Prod.mk.injEq] at ran
          obtain ⟨rfl, rfl, rfl⟩ := ran
          exact .cycled cycled (.placed attempt)
      | none =>
          simp only [Checked.bind_eq_ok_iff, Checked.pure_eq_ok_iff, Prod.mk.injEq] at ran
          obtain ⟨⟨_, final, later⟩, retried, rfl, rfl, rfl⟩ := ran
          rw [List.append_assoc]
          exact .cycled cycled (.crowded attempt (allocation_of_allocateAfterMajor retried))

theorem allocation_of_allocate
    (ran : collector.allocateRecorded roots size fieldCount = .ok (answer, after, moments)) :
    Allocation roots size fieldCount collector answer after moments := by
  unfold allocateRecorded at ran
  cases poison : collector.checkPoison with
  | error failure =>
      simp only [poison, Checked.pure_eq_ok_iff, Prod.mk.injEq] at ran
      obtain ⟨rfl, rfl, rfl⟩ := ran
      exact .refused failure
  | ok _ =>
      simp only [poison] at ran
      rw [Checked.bind_eq_ok_iff] at ran
      obtain ⟨⟨placed, last, placing⟩, attempt, ran⟩ := ran
      cases placed with
      | some handle =>
          simp only [Checked.pure_eq_ok_iff, Prod.mk.injEq] at ran
          obtain ⟨rfl, rfl, rfl⟩ := ran
          exact .placed attempt
      | none =>
          simp only [Checked.bind_eq_ok_iff, Checked.pure_eq_ok_iff, Prod.mk.injEq] at ran
          obtain ⟨⟨_, final, later⟩, retried, rfl, rfl, rfl⟩ := ran
          exact .crowded attempt (allocation_of_allocateAfterMinor retried)

end Cycles

end Collector

end Tenure
