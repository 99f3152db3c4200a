import Tenure.Proofs.Heap.Access
import Tenure.Proofs.Heap.Major
import Tenure.Proofs.Heap.MinorExact

/-!
# Heaps that operations lead to

A heap is attainable if operations lead to it from a new one. The operations may come in
any order and with any arguments: stale handles, repeated roots, markers that were used
before. Attainable heaps are sound, so every old object that references a young one lies
in a dirty card.
-/

set_option autoImplicit false

namespace Tenure.Heap

/-- What can be asked of a heap. -/
inductive Operation where
  | allocate (size fieldCount : Nat)
  | store (holder : Handle) (index : Nat) (value : Option Handle)
  | minorCycle (marker : Marker) (roots : List Handle)
  | majorCycle (marker : Marker) (roots : List Handle)
  | setThreshold (threshold : Nat)

variable {Source : Type} [MemorySource Source]

/-- The heap after an operation, whether it was refused or not. -/
def perform (heap : Heap Source) : Operation → Checked (Heap Source)
  | .allocate size fieldCount => do
    let (_, heap) ← heap.tryAllocate size fieldCount
    return heap
  | .store holder index value => do
    let (_, heap) ← heap.store holder index value
    return heap
  | .minorCycle marker roots => do
    let (_, heap, _) ← heap.minorCycle marker roots
    return heap
  | .majorCycle marker roots => do
    let (_, heap, _) ← heap.majorCycle marker roots
    return heap
  | .setThreshold threshold => return (heap.setThreshold threshold).2

def performAll (heap : Heap Source) (operations : List Operation) : Checked (Heap Source) :=
  operations.foldlM perform heap

theorem performAll_cons_eq_ok {heap after : Heap Source} {operation : Operation}
    {rest : List Operation} : heap.performAll (operation :: rest) = .ok after ↔
      ∃ next, heap.perform operation = .ok next ∧ next.performAll rest = .ok after := by
  unfold performAll
  rw [List.foldlM_cons, Checked.bind_eq_ok_iff]

theorem performAll_append_eq_ok {heap after : Heap Source} {earlier later : List Operation} :
    heap.performAll (earlier ++ later) = .ok after ↔
      ∃ middle, heap.performAll earlier = .ok middle ∧ middle.performAll later = .ok after := by
  unfold performAll
  rw [List.foldlM_append, Checked.bind_eq_ok_iff]

/-- Operations lead to a heap from a new one without a trap. -/
def Attainable (heap : Heap Source) : Prop :=
  ∃ settings memory initial operations,
    (create settings memory).run = .ok (.ok initial) ∧ initial.performAll operations = .ok heap

/-- Whether operations on a new heap lead to one that passes a test. -/
def leadsTo (settings : Settings) (memory : Source) (operations : List Operation)
    (test : Heap Source → Bool) : Bool :=
  match (create settings memory).run with
  | .ok (.ok initial) =>
    match initial.performAll operations with
    | .ok heap => test heap
    | .error _ => false
  | _ => false

theorem runs_of_leadsTo {settings : Settings} {memory : Source}
    {operations : List Operation} {test : Heap Source → Bool}
    (passes : leadsTo settings memory operations test = true) :
    ∃ initial heap : Heap Source, (create settings memory).run = .ok (.ok initial) ∧
      initial.performAll operations = .ok heap ∧ test heap = true := by
  unfold leadsTo at passes
  split at passes
  · rename_i initial created
    split at passes
    · rename_i heap performed
      exact ⟨initial, heap, created, performed, passes⟩
    · simp at passes
  · simp at passes

theorem passes_of_leadsTo {settings : Settings} {memory : Source} {operations : List Operation}
    {initial heap : Heap Source} (created : (create settings memory).run = .ok (.ok initial))
    (performed : initial.performAll operations = .ok heap) {test : Heap Source → Bool}
    (passes : leadsTo settings memory operations test = true) : test heap = true := by
  simpa only [leadsTo, created, performed] using passes

theorem attainable_of_leadsTo {settings : Settings} {memory : Source}
    {operations : List Operation} {test : Heap Source → Bool}
    (passes : leadsTo settings memory operations test = true) :
    ∃ heap : Heap Source, heap.Attainable ∧ test heap = true := by
  obtain ⟨initial, heap, created, performed, tested⟩ := runs_of_leadsTo passes
  exact ⟨heap, ⟨settings, memory, initial, operations, created, performed⟩, tested⟩

/-- Whether a minor cycle from these roots has an outcome that passes a test. -/
def minorYields (heap : Heap Source) (roots : List Handle) (test : MinorOutcome → Bool) : Bool :=
  match heap.minorCycle .fresh roots with
  | .ok (.ok outcome, _, _) => test outcome
  | _ => false

theorem ran_of_minorYields {heap : Heap Source} {roots : List Handle}
    {test : MinorOutcome → Bool} (passes : heap.minorYields roots test = true) :
    ∃ outcome after next, heap.minorCycle .fresh roots = .ok (.ok outcome, after, next) ∧
      test outcome = true := by
  unfold minorYields at passes
  split at passes
  · rename_i outcome after next ran
    exact ⟨outcome, after, next, ran, passes⟩
  · cases passes

/-! ## Soundness -/

/-- What has run when an operation ends. -/
inductive Performs (heap : Heap Source) : Operation → Heap Source → Prop where
  | allocate {size fieldCount : Nat} {placed : Option Handle} {after : Heap Source}
      (ran : heap.tryAllocate size fieldCount = .ok (placed, after)) :
      Performs heap (.allocate size fieldCount) after
  | store {holder : Handle} {index : Nat} {value : Option Handle} {answer : Answer Unit}
      {after : Heap Source} (ran : heap.store holder index value = .ok (answer, after)) :
      Performs heap (.store holder index value) after
  | minorCycle {marker next : Marker} {roots : List Handle} {answer : Answer MinorOutcome}
      {after : Heap Source} (ran : heap.minorCycle marker roots = .ok (answer, after, next)) :
      Performs heap (.minorCycle marker roots) after
  | majorCycle {marker next : Marker} {roots : List Handle} {answer : Answer MajorOutcome}
      {after : Heap Source} (ran : heap.majorCycle marker roots = .ok (answer, after, next)) :
      Performs heap (.majorCycle marker roots) after
  | setThreshold (threshold : Nat) :
      Performs heap (.setThreshold threshold) (heap.setThreshold threshold).2

theorem perform_eq_ok {heap after : Heap Source} {operation : Operation}
    (ran : heap.perform operation = .ok after) : heap.Performs operation after := by
  cases operation with
  | allocate size fieldCount =>
      simp only [Heap.perform, Checked.bind_eq_ok_iff, Checked.pure_eq_ok_iff] at ran
      obtain ⟨⟨placed, final⟩, ran, rfl⟩ := ran
      exact .allocate ran
  | store holder index value =>
      simp only [Heap.perform, Checked.bind_eq_ok_iff, Checked.pure_eq_ok_iff] at ran
      obtain ⟨⟨answer, final⟩, ran, rfl⟩ := ran
      exact .store ran
  | minorCycle marker roots =>
      simp only [Heap.perform, Checked.bind_eq_ok_iff, Checked.pure_eq_ok_iff] at ran
      obtain ⟨⟨answer, final, next⟩, ran, rfl⟩ := ran
      exact .minorCycle ran
  | majorCycle marker roots =>
      simp only [Heap.perform, Checked.bind_eq_ok_iff, Checked.pure_eq_ok_iff] at ran
      obtain ⟨⟨answer, final, next⟩, ran, rfl⟩ := ran
      exact .majorCycle ran
  | setThreshold threshold =>
      simp only [Heap.perform, Checked.pure_eq_ok_iff] at ran
      exact ran ▸ .setThreshold threshold

theorem Performs.perform_eq {heap after : Heap Source} {operation : Operation}
    (performs : heap.Performs operation after) : heap.perform operation = .ok after := by
  cases performs with
  | allocate ran => rw [Heap.perform, ran]; rfl
  | store ran => rw [Heap.perform, ran]; rfl
  | minorCycle ran => rw [Heap.perform, ran]; rfl
  | majorCycle ran => rw [Heap.perform, ran]; rfl
  | setThreshold threshold => rfl

/-- Operations lead from one heap to the other without a trap. -/
def Attains (heap after : Heap Source) : Prop :=
  ∃ operations, heap.performAll operations = .ok after

namespace Attains

variable {heap middle after : Heap Source}

theorem refl (heap : Heap Source) : heap.Attains heap := ⟨[], rfl⟩

theorem one {operation : Operation} (performs : heap.Performs operation after) :
    heap.Attains after := by
  exact ⟨[operation], performAll_cons_eq_ok.mpr ⟨after, performs.perform_eq, rfl⟩⟩

theorem trans (first : heap.Attains middle) (second : middle.Attains after) :
    heap.Attains after := by
  obtain ⟨operations, ran⟩ := first
  obtain ⟨later, followed⟩ := second
  exact ⟨operations ++ later, performAll_append_eq_ok.mpr ⟨middle, ran, followed⟩⟩

end Attains

theorem Attainable.attains {heap after : Heap Source} (attainable : heap.Attainable)
    (attains : heap.Attains after) : after.Attainable := by
  obtain ⟨settings, memory, initial, operations, created, performed⟩ := attainable
  obtain ⟨all, ran⟩ := Attains.trans ⟨operations, performed⟩ attains
  exact ⟨settings, memory, initial, all, created, ran⟩

theorem Sound.perform {heap after : Heap Source} (sound : heap.Sound) {operation : Operation}
    (ran : heap.perform operation = .ok after) : after.Sound := by
  cases perform_eq_ok ran with
  | allocate ran => exact sound.tryAllocate ran
  | store ran => exact sound.store ran
  | minorCycle ran => exact sound.minorCycle ran
  | majorCycle ran => exact sound.majorCycle ran
  | setThreshold threshold => exact sound.setThreshold threshold

theorem Sound.performAll {heap after : Heap Source} (sound : heap.Sound)
    {operations : List Operation} (ran : heap.performAll operations = .ok after) :
    after.Sound :=
  Checked.foldlM_induction (fun _ current => current.Sound) ran sound
    fun _ _ _ _ _ _ current stepped => current.perform stepped

theorem Attainable.sound {heap : Heap Source} (attainable : heap.Attainable) : heap.Sound := by
  obtain ⟨settings, memory, initial, operations, created, performed⟩ := attainable
  exact (sound_of_create created).performAll performed

/-- Whatever operations came before, an old object with a field that names a young one
lies in a dirty card. -/
theorem card_dirty_of_old_to_young {heap : Heap Source} (attainable : heap.Attainable)
    {holder target : Handle} {record : Record}
    (found : heap.directory.get? holder = some record) (old : record.generation = .old)
    (field : some target ∈ record.fields) (young : heap.directory.isYoung target = true) :
    heap.cards.Covers record.address ∧
      heap.cards.isDirty (heap.cards.cardIndex record.address) = true ∧
      ∀ card, heap.cards.cardOf record.address = .ok card →
        card = some (heap.cards.cardIndex record.address) := by
  have references : heap.directory.referencesYoung holder = true :=
    Directory.referencesYoung_iff.mpr
      ⟨target, Directory.mem_graph_iff.mpr ⟨record, found, field⟩, young⟩
  obtain ⟨covered, dirty⟩ := attainable.sound.remembered holder record found old references
  refine ⟨covered, dirty, fun card ran => ?_⟩
  rcases CardTable.cardOf_eq_ok ran with ⟨_, same⟩ | ⟨uncovered, _⟩
  · exact same
  · exact absurd covered uncovered

/-! ## A run -/

def smallSettings : Settings :=
  { cardSize := 64
    promotionThreshold := 2
    edenSize := 256
    survivorRatio := 2
    oldSize := 256 }

def firstHandle : Handle := { slot := 0, epoch := 0 }

def secondHandle : Handle := { slot := 1, epoch := 0 }

def thirdHandle : Handle := { slot := 2, epoch := 0 }

/-- An object is promoted and then made to reference a new one. -/
def promotingOperations : List Operation :=
  [.allocate 16 1, .minorCycle .fresh [firstHandle], .minorCycle .fresh [firstHandle],
    .allocate 24 1, .store firstHandle 0 (some secondHandle), .allocate 8 0]

theorem card_dirty_of_promoted : ∃ (heap : Heap WindowedMemory) (record : Record),
    heap.Attainable ∧ heap.directory.get? firstHandle = some record ∧
      record.generation = .old ∧ heap.directory.isYoung secondHandle = true ∧
      heap.cards.Covers record.address ∧
      heap.cards.isDirty (heap.cards.cardIndex record.address) = true ∧
      ∀ card, heap.cards.cardOf record.address = .ok card →
        card = some (heap.cards.cardIndex record.address) := by
  obtain ⟨heap, attainable, facts⟩ := attainable_of_leadsTo
    (show leadsTo smallSettings (WindowedMemory.fresh none) promotingOperations
      (fun heap => heap.directory.isYoung secondHandle &&
        (heap.directory.get? firstHandle).any fun record =>
          decide (record.generation = .old ∧ some secondHandle ∈ record.fields)) = true
      by decide +kernel)
  rw [Bool.and_eq_true, Option.any_eq_true] at facts
  obtain ⟨young, record, found, facts⟩ := facts
  obtain ⟨old, field⟩ := of_decide_eq_true facts
  exact ⟨heap, record, attainable, found, old, young,
    card_dirty_of_old_to_young attainable found old field young⟩

end Tenure.Heap
