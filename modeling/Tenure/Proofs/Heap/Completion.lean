import Mathlib.Data.List.Infix
import Tenure.Proofs.Heap.CycleTotality

/-!
# Operations complete

A heap on windowed memory stays sound, its survivor spaces take turns, and it stays inside
the address space. So none of the operations stops at a trap: allocations fail for lack of
room in eden only, and cycles always have an outcome. The sizes that are asked for have to
leave room for rounding up, and the fields of the live objects have to be countable.
-/

set_option autoImplicit false

namespace Tenure.Heap

open Checked (Answers StopsOnlyIf answers_pure)

variable {heap after : Heap WindowedMemory}

/-! ## Allocation -/

/-- A vector of so many fields cannot exist. -/
def Unstorable (fieldCount : Nat) : Prop := Word.largestTable < fieldCount * fieldWidth

theorem stopsOnlyIf_nullFields (fieldCount : Nat) :
    StopsOnlyIf (Unstorable fieldCount) .tableTooLarge (nullFields fieldCount) := by
  unfold nullFields
  apply StopsOnlyIf.bind
  · by_cases storable : fieldCount * fieldWidth ≤ Word.largestTable
    · exact .inl ⟨(), Word.checkTable_eq_ok_iff.mpr storable⟩
    · exact .inr ⟨Nat.lt_of_not_le storable, if_neg storable⟩
  · intro _ _
    exact (answers_pure _).stopsOnlyIf

/-- An allocation of a size that can be rounded up stops only at a field vector that cannot
exist. -/
theorem stopsOnlyIf_tryAllocate (consistent : heap.Consistent) (addressable : heap.Addressable)
    {size : Nat} (small : size + granule < Word.limit) (fieldCount : Nat) :
    StopsOnlyIf (Unstorable fieldCount) .tableTooLarge (heap.tryAllocate size fieldCount) := by
  have eden : heap.eden.WellFormed := (consistent.fills .eden).wellFormed
  unfold Heap.tryAllocate
  refine (eden.answers_room? small).stopsOnlyIf.bind fun room granted => ?_
  cases room with
  | none => exact (answers_pure _).stopsOnlyIf
  | some room =>
      refine (stopsOnlyIf_nullFields fieldCount).bind fun _ _ => ?_
      cases heap.directory.fresh? with
      | none => exact (answers_pure _).stopsOnlyIf
      | some handle =>
          obtain ⟨_, fits⟩ := Arena.room?_eq_some granted
          have capacity := addressable.capacity_le .eden
          have again : room + granule < Word.limit := by
            simp only [Heap.arena, granule, WindowedMemory.window, Word.limit] at capacity ⊢
            omega
          refine (eden.answers_placement? (addressable.arena .eden) again).stopsOnlyIf.bind
            fun answer placed => ?_
          obtain rfl := Arena.placement?_of_room? granted placed
          exact (answers_pure _).stopsOnlyIf

theorem answers_tryAllocate (consistent : heap.Consistent) (addressable : heap.Addressable)
    {size fieldCount : Nat} (small : size + granule < Word.limit)
    (storable : fieldCount * fieldWidth ≤ Word.largestTable) :
    Answers (heap.tryAllocate size fieldCount) :=
  (stopsOnlyIf_tryAllocate consistent addressable small fieldCount).answers
    (Nat.not_lt_of_le storable)

/-- There is always a slot for one more object, so an allocation that fails lacks room. -/
theorem crowded_of_unplaced (consistent : heap.Consistent) (addressable : heap.Addressable)
    {size fieldCount : Nat} (ran : heap.tryAllocate size fieldCount = .ok (none, after)) :
    ∃ room, alignSize size = .ok room ∧ heap.eden.capacity < heap.eden.used + room := by
  rcases tryAllocate_eq_none ran with crowded | occupied
  · exact crowded
  · obtain ⟨handle, fresh⟩ := consistent.directory.exists_fresh (addressable.live_lt consistent)
    rw [occupied] at fresh
    cases fresh

/-! ## Stores -/

theorem answers_store (consistent : heap.Consistent) (addressable : heap.Addressable)
    (holder : Handle) (index : Nat) (value : Option Handle) :
    Answers (heap.store holder index value) := by
  unfold Heap.store
  split
  · exact answers_pure _
  · exact ((addressable.cards consistent.cards).answers_onStore consistent.cards.wellFormed
      _ _ _ _).bind fun _ _ => answers_pure _

/-! ## One operation -/

/-- A size that can be rounded up, and fields that a table can hold. -/
def Operation.Sized : Operation → Prop
  | .allocate size fieldCount =>
      size + granule < Word.limit ∧ fieldCount * fieldWidth ≤ Word.largestTable
  | _ => True

/-- An operation does not stop at a trap. An allocation finds a place unless eden has no room
for it, and a cycle has an outcome. -/
def Completes (heap : Heap WindowedMemory) : Operation → Prop
  | .allocate size fieldCount => ∃ placed after,
      heap.tryAllocate size fieldCount = .ok (placed, after) ∧
        (placed = none →
          ∃ room, alignSize size = .ok room ∧ heap.eden.capacity < heap.eden.used + room)
  | .store holder index value => ∃ answer after,
      heap.store holder index value = .ok (answer, after)
  | .minorCycle marker roots => ∃ outcome after next,
      heap.minorCycle marker roots = .ok (.ok outcome, after, next)
  | .majorCycle marker roots => ∃ outcome after next,
      heap.majorCycle marker roots = .ok (.ok outcome, after, next)
  | .setThreshold _ => True

theorem Completes.answers {operation : Operation} (completes : heap.Completes operation) :
    Answers (heap.perform operation) := by
  cases operation with
  | allocate size fieldCount =>
      obtain ⟨_, _, ran, _⟩ := completes
      exact Answers.bind ⟨_, ran⟩ fun _ _ => answers_pure _
  | store holder index value =>
      obtain ⟨_, _, ran⟩ := completes
      exact Answers.bind ⟨_, ran⟩ fun _ _ => answers_pure _
  | minorCycle marker roots =>
      obtain ⟨_, _, _, ran⟩ := completes
      exact Answers.bind ⟨_, ran⟩ fun _ _ => answers_pure _
  | majorCycle marker roots =>
      obtain ⟨_, _, _, ran⟩ := completes
      exact Answers.bind ⟨_, ran⟩ fun _ _ => answers_pure _
  | setThreshold threshold => exact answers_pure _

/-- What the operations keep and need. -/
structure Ready (heap : Heap WindowedMemory) : Prop where
  sound : heap.Sound
  rotating : heap.Rotating
  addressable : heap.Addressable

theorem Ready.perform (ready : heap.Ready) {operation : Operation}
    (ran : heap.perform operation = .ok after) : after.Ready where
  sound := ready.sound.perform ran
  rotating := ready.rotating.perform ready.sound ran
  addressable := ready.addressable.of_reshapes (reshapes_of_perform ready.sound.consistent ran)

theorem Ready.completes (ready : heap.Ready) {operation : Operation} (sized : operation.Sized)
    (countable : heap.directory.fieldCount < Word.limit) : heap.Completes operation := by
  obtain ⟨sound, rotating, addressable⟩ := ready
  have consistent := sound.consistent
  cases operation with
  | allocate size fieldCount =>
      obtain ⟨small, storable⟩ := sized
      obtain ⟨⟨placed, after⟩, ran⟩ :=
        answers_tryAllocate consistent addressable small storable
      refine ⟨placed, after, ran, fun unplaced => ?_⟩
      subst unplaced
      exact crowded_of_unplaced consistent addressable ran
  | store holder index value =>
      obtain ⟨⟨answer, after⟩, ran⟩ := answers_store consistent addressable holder index value
      exact ⟨answer, after, ran⟩
  | minorCycle marker roots =>
      obtain ⟨⟨answer, after, next⟩, ran⟩ :=
        answers_minorCycle consistent rotating addressable countable marker roots
      obtain ⟨⟨outcome, rfl⟩, _⟩ := minorCycle_eq_ok ran
      exact ⟨outcome, after, next, ran⟩
  | majorCycle marker roots =>
      obtain ⟨⟨answer, after, next⟩, ran⟩ :=
        answers_majorCycle consistent addressable countable marker roots
      obtain ⟨outcome, rfl, _⟩ := majorCycle_eq_ok ran
      exact ⟨outcome, after, next, ran⟩
  | setThreshold threshold => trivial

/-! ## Runs -/

theorem Ready.performAll {initial : Heap WindowedMemory} (ready : initial.Ready)
    {operations : List Operation} (ran : initial.performAll operations = .ok after) :
    after.Ready :=
  Checked.foldlM_induction (fun _ current => Heap.Ready current) ran ready
    fun _ _ _ _ _ _ current stepped => current.perform stepped

theorem ready_of_create {settings : Settings} {budget : Option Nat}
    (created : (create settings (WindowedMemory.fresh budget)).run = .ok (.ok heap)) :
    heap.Ready :=
  ⟨sound_of_create created, rotating_of_create created, addressable_of_create created⟩

/-- Every operation of a run completes, so the run reaches its end. -/
theorem operations_complete {settings : Settings} {budget : Option Nat}
    {initial : Heap WindowedMemory} {operations : List Operation}
    (created : (create settings (WindowedMemory.fresh budget)).run = .ok (.ok initial))
    (sized : ∀ operation ∈ operations, operation.Sized)
    (countable : ∀ seen heap, seen <+: operations → initial.performAll seen = .ok heap →
      heap.directory.fieldCount < Word.limit) :
    (∃ final, initial.performAll operations = .ok final) ∧
      ∀ seen operation rest heap, operations = seen ++ operation :: rest →
        initial.performAll seen = .ok heap → heap.Completes operation := by
  have completes : ∀ seen operation rest heap, operations = seen ++ operation :: rest →
      initial.performAll seen = .ok heap → heap.Completes operation := by
    intro seen operation rest heap split ran
    have ready := (ready_of_create created).performAll ran
    exact ready.completes (sized operation (by simp [split]))
      (countable seen heap ⟨_, split.symm⟩ ran)
  refine ⟨?_, completes⟩
  refine Checked.answers_foldlM (fun seen current => initial.performAll seen = .ok current) rfl
    (fun seen operation rest current split ran =>
      (completes seen operation rest current split ran).answers) ?_
  intro seen operation rest current next split ran stepped
  rw [Heap.performAll, List.foldlM_append]
  exact Checked.bind_of_eq_ok ran (Checked.bind_of_eq_ok stepped rfl)

/-- A run with a promotion, cycles of both kinds and a request that eden has no room for. -/
def completingOperations : List Operation :=
  promotingOperations ++
    [.majorCycle .fresh [firstHandle], .allocate 512 3, .minorCycle .fresh [secondHandle]]

theorem completingOperations_complete : ∃ initial : Heap WindowedMemory,
    (create smallSettings (WindowedMemory.fresh none)).run = .ok (.ok initial) ∧
      (∃ final, initial.performAll completingOperations = .ok final) ∧
      ∀ seen operation rest heap, completingOperations = seen ++ operation :: rest →
        initial.performAll seen = .ok heap → heap.Completes operation := by
  obtain ⟨answer, created, counts⟩ := Checked.eq_ok_of_any
    (show (create smallSettings (WindowedMemory.fresh none)).run.toOption.any (fun answer =>
      answer.toOption.any fun initial => completingOperations.inits.all fun seen =>
        (initial.performAll seen).toOption.all fun heap =>
          decide (heap.directory.fieldCount < Word.limit)) = true by decide +kernel)
  cases answer with
  | error failure => simp [Except.toOption] at counts
  | ok initial =>
      refine ⟨initial, created, operations_complete created ?_ ?_⟩
      · simp [completingOperations, promotingOperations, Operation.Sized, granule, fieldWidth,
          Word.limit, Word.largestTable]
      · intro seen heap early ran
        simp only [Except.toOption, Option.any_some, List.all_eq_true, List.mem_inits] at counts
        have counted := counts seen early
        rw [ran] at counted
        exact of_decide_eq_true counted

/-! ## A size that cannot be rounded up -/

theorem alignSize_of_limit_le {size : Nat} (large : Word.limit ≤ size + granule) :
    alignSize size = .error .addOverflow := by
  have exceeds : ¬ max size 1 + granule < Word.limit := by omega
  simp only [alignSize, Word.add, exceeds, ↓reduceIte]
  rfl

theorem tryAllocate_of_limit_le {Source : Type} (heap : Heap Source) {size : Nat}
    (large : Word.limit ≤ size + granule) (fieldCount : Nat) :
    heap.tryAllocate size fieldCount = .error .addOverflow := by
  simp only [Heap.tryAllocate, Arena.room?, alignSize_of_limit_le large]
  rfl

/-- The greatest size of whole granules needs no rounding, and yet it ends in a trap. -/
theorem allocate_greatest_traps : ∃ initial : Heap WindowedMemory,
    (create smallSettings (WindowedMemory.fresh none)).run = .ok (.ok initial) ∧
      initial.performAll [.allocate (Word.limit - granule) 0] = .error .addOverflow := by
  obtain ⟨answer, created, accepted⟩ := Checked.eq_ok_of_any
    (show (create smallSettings (WindowedMemory.fresh none)).run.toOption.any (fun answer =>
      answer.isOk) = true by decide +kernel)
  cases answer with
  | error failure => cases accepted
  | ok initial =>
      refine ⟨initial, created, ?_⟩
      simp only [Heap.performAll, List.foldlM_cons, Heap.perform,
        tryAllocate_of_limit_le initial (show Word.limit ≤ Word.limit - granule + granule by decide)]
      rfl

end Tenure.Heap
