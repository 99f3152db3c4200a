import Mathlib.Order.CompletePartialOrder
import Mathlib.Order.Interval.Set.Disjoint
import Tenure.Proofs.Heap.Completion

/-!
# Objects share no memory

The spaces of a heap on windowed memory lie in four windows, and inside a space one resident
follows the other. So no address belongs to two objects. The memory has committed what the
spaces have, however often the old space was granted or refused more room, and that never
exceeds the budget.
-/

set_option autoImplicit false

namespace Tenure

/-- The addresses of an arena. -/
def Arena.region (arena : Arena) : Set Nat := Set.Ico arena.base (arena.base + arena.capacity)

/-- The addresses of an arena below its frontier. -/
def Arena.filled (arena : Arena) : Set Nat := Set.Ico arena.base (arena.base + arena.used)

/-- The addresses of an object. -/
def Record.extent (record : Record) : Set Nat :=
  Set.Ico record.address (record.address + record.size)

theorem Arena.WellFormed.filled_subset {arena : Arena} (wellFormed : arena.WellFormed) :
    arena.filled ⊆ arena.region :=
  Set.Ico_subset_Ico_right (Nat.add_le_add_left wellFormed.used_le arena.base)

namespace Heap

open WindowedMemory (window)

variable {heap after : Heap WindowedMemory} {budget : Option Nat}

/-! ## Windows -/

/-- The spaces are reserved in this order, and the first window is left out. -/
def windowOf : Space → Nat
  | .eden => 1
  | .survivor .a => 2
  | .survivor .b => 3
  | .old => 4

theorem windowOf_injective {space other : Space} (same : windowOf space = windowOf other) :
    space = other := by
  rcases space with _ | (_ | _) | _ <;> rcases other with _ | (_ | _) | _ <;> first | rfl | cases same

/-- The bytes that the spaces have together. -/
def capacity (heap : Heap WindowedMemory) : Nat :=
  heap.eden.capacity + heap.survivorA.capacity + heap.survivorB.capacity + heap.old.capacity

theorem capacity_congr {extra : Nat}
    (young : ∀ space, space ≠ .old →
      (after.arena space).capacity = (heap.arena space).capacity)
    (old : after.old.capacity = heap.old.capacity + extra) :
    after.capacity = heap.capacity + extra := by
  have eden := young .eden (by simp)
  have first := young (.survivor .a) (by simp)
  have second := young (.survivor .b) (by simp)
  simp only [arena, survivor] at eden first second
  simp only [capacity]
  omega

/-- Every space begins where its window does, and the memory has committed what the spaces
have. -/
structure Windowed (budget : Option Nat) (heap : Heap WindowedMemory) : Prop where
  base : ∀ space, (heap.arena space).base = windowOf space * window
  committed : heap.memory.committed = heap.capacity
  budget_eq : heap.memory.budget = budget
  within : heap.memory.WithinBudget

namespace Windowed

theorem of_same (windowed : heap.Windowed budget) (same : heap.SameSpaces after) :
    after.Windowed budget where
  base := fun space => (same.base space).trans (windowed.base space)
  committed := by
    have old : after.old.capacity = heap.old.capacity + 0 := same.capacity .old
    rw [same.memory, windowed.committed, capacity_congr (fun space _ => same.capacity space) old]
    rfl
  budget_eq := same.memory ▸ windowed.budget_eq
  within := same.memory ▸ windowed.within

/-- The capacity changes exactly where the memory grants it. -/
theorem growOld (windowed : heap.Windowed budget) (spans : heap.cards.Spans heap.old)
    {additional : Nat} {granted : Bool} (ran : heap.growOld additional = .ok (granted, after)) :
    after.Windowed budget := by
  obtain ⟨larger, old, extended⟩ := growOld_eq_ok spans ran
  have young : ∀ space, space ≠ .old →
      (after.arena space).capacity = (heap.arena space).capacity :=
    fun space young => congrArg Arena.capacity (larger.arena_of_young young)
  have base := fun space => (larger.base space).trans (windowed.base space)
  rw [extend_def] at extended
  rcases WindowedMemory.extend_eq_ok extended with
    ⟨rfl, same, _⟩ | ⟨rfl, _, committed, budget_eq, within⟩
  · refine ⟨base, ?_, same ▸ windowed.budget_eq, same ▸ windowed.within⟩
    rw [same, windowed.committed]
    exact (capacity_congr young old).symm
  · refine ⟨base, ?_, budget_eq.trans windowed.budget_eq, within⟩
    rw [committed, windowed.committed]
    exact (capacity_congr young old).symm

theorem of_reshapes (windowed : heap.Windowed budget) (reshapes : heap.Reshapes after) :
    after.Windowed budget := by
  induction reshapes with
  | same same => exact windowed.of_same same
  | grown spans grows =>
      cases grows with
      | unasked => exact windowed
      | asked ran => exact windowed.growOld spans ran
  | trans _ _ first second => exact second (first windowed)

end Windowed

theorem windowed_of_create {settings : Settings}
    (created : (create settings (WindowedMemory.fresh budget)).run = .ok (.ok heap)) :
    heap.Windowed budget := by
  obtain ⟨_, _, _, creation⟩ := creation_of_create created
  obtain ⟨edenBase, _, edenNext, edenCommitted, edenBudget, _⟩ :=
    reserveArena_window creation.eden
  obtain ⟨baseA, _, nextA, committedA, budgetA, _⟩ := reserveArena_window creation.survivorA
  obtain ⟨baseB, _, nextB, committedB, budgetB, _⟩ := reserveArena_window creation.survivorB
  obtain ⟨oldBase, _, _, oldCommitted, oldBudget, within⟩ := reserveArena_window creation.old
  have first : (WindowedMemory.fresh budget).nextWindow = window := rfl
  have uncommitted : (WindowedMemory.fresh budget).committed = 0 := rfl
  refine ⟨fun space => ?_, ?_, ?_, within⟩
  · cases space with
    | eden => simp only [arena, windowOf]; omega
    | survivor side => cases side <;> simp only [arena, survivor, windowOf] <;> omega
    | old => simp only [arena, windowOf]; omega
  · simp only [capacity]
    omega
  · rw [oldBudget, budgetB, budgetA, edenBudget]
    rfl

theorem Windowed.disjoint_regions (windowed : heap.Windowed budget)
    (addressable : heap.Addressable) {space other : Space} (different : space ≠ other) :
    Disjoint (heap.arena space).region (heap.arena other).region := by
  have base := windowed.base space
  have otherBase := windowed.base other
  have capacity := addressable.capacity_le space
  have otherCapacity := addressable.capacity_le other
  have apart : windowOf space ≠ windowOf other := fun same => different (windowOf_injective same)
  refine Set.Ico_disjoint_Ico.mpr ?_
  simp only [window] at base otherBase capacity otherCapacity
  omega

/-! ## Objects -/

section Objects

variable {handle other : Handle} {record second : Record}

theorem Consistent.extent_subset (consistent : heap.Consistent)
    (found : heap.directory.get? handle = some record) :
    record.extent ⊆ (heap.arena record.space).filled := by
  have fills := consistent.fills record.space
  obtain ⟨resident, member, _, size, address⟩ := fills.exists_resident found rfl
  have ends := fills.wellFormed.finish_le_used member
  refine Set.Ico_subset_Ico ?_ ?_
  · omega
  · simp only [Resident.finish] at ends
    omega

theorem Consistent.disjoint_of_same_space (consistent : heap.Consistent)
    (found : heap.directory.get? handle = some record)
    (otherFound : heap.directory.get? other = some second) (different : handle ≠ other)
    (same : record.space = second.space) : Disjoint record.extent second.extent := by
  have fills := consistent.fills second.space
  obtain ⟨resident, member, rfl, size, address⟩ := fills.exists_resident found same
  obtain ⟨next, nextMember, rfl, nextSize, nextAddress⟩ := fills.exists_resident otherFound rfl
  have apart := fills.wellFormed.packed.apart member nextMember
    fun equal => different (congrArg Resident.handle equal)
  simp only [Resident.finish] at apart
  refine Set.Ico_disjoint_Ico.mpr ?_
  omega

theorem Windowed.granule_dvd_address (windowed : heap.Windowed budget)
    (consistent : heap.Consistent) (found : heap.directory.get? handle = some record) :
    granule ∣ record.address := by
  have fills := consistent.fills record.space
  obtain ⟨resident, member, _, _, address⟩ := fills.exists_resident found rfl
  rw [address, windowed.base]
  refine Nat.dvd_add (Nat.dvd_mul_left_of_dvd (by decide) _) ?_
  exact fills.wellFormed.packed.granule_dvd_offset fills.wellFormed.whole member

end Objects

/-- The spaces share no address, and neither do the objects in them. The memory has committed
what the spaces have, within its budget. -/
structure Separated (budget : Option Nat) (heap : Heap WindowedMemory) : Prop where
  regions : Pairwise fun space other =>
    Disjoint (heap.arena space).region (heap.arena other).region
  inside : ∀ handle record, heap.directory.get? handle = some record →
    0 < record.size ∧ record.extent ⊆ (heap.arena record.space).filled ∧
      (heap.arena record.space).filled ⊆ (heap.arena record.space).region
  apart : ∀ handle record other second, heap.directory.get? handle = some record →
    heap.directory.get? other = some second → handle ≠ other →
      Disjoint record.extent second.extent
  aligned : ∀ handle record, heap.directory.get? handle = some record → granule ∣ record.address
  committed : heap.memory.committed = heap.eden.capacity + heap.survivorA.capacity +
    heap.survivorB.capacity + heap.old.capacity
  within : ∀ limit, budget = some limit → heap.memory.committed ≤ limit

theorem Ready.separated (ready : heap.Ready) (windowed : heap.Windowed budget) :
    heap.Separated budget := by
  have consistent := ready.sound.consistent
  have regions : Pairwise fun space other =>
      Disjoint (heap.arena space).region (heap.arena other).region :=
    fun space other different => windowed.disjoint_regions ready.addressable different
  have filled := fun space => (consistent.fills space).wellFormed.filled_subset
  refine
    { regions
      inside := fun handle record found =>
        ⟨(consistent.wholeGranules found).1, consistent.extent_subset found, filled record.space⟩
      apart := fun handle record other second found otherFound different => ?_
      aligned := fun handle record found => windowed.granule_dvd_address consistent found
      committed := windowed.committed
      within := fun limit same => windowed.within limit (windowed.budget_eq.trans same) }
  by_cases same : record.space = second.space
  · exact consistent.disjoint_of_same_space found otherFound different same
  · exact (regions same).mono
      ((consistent.extent_subset found).trans (filled record.space))
      ((consistent.extent_subset otherFound).trans (filled second.space))

/-! ## Runs -/

theorem windowed_of_performAll {initial : Heap WindowedMemory} (ready : initial.Ready)
    (windowed : initial.Windowed budget) {operations : List Operation}
    (ran : initial.performAll operations = .ok heap) : heap.Windowed budget := by
  refine (Checked.foldlM_induction (fun _ current => Heap.Ready current ∧
    Heap.Windowed budget current) ran ⟨ready, windowed⟩ ?_).2
  intro seen operation rest current next split holds stepped
  exact ⟨holds.1.perform stepped,
    holds.2.of_reshapes (reshapes_of_perform holds.1.sound.consistent stepped)⟩

/-- Whatever operations run on a new heap, its objects share no memory. -/
theorem separated_of_performAll {settings : Settings} {initial : Heap WindowedMemory}
    (created : (create settings (WindowedMemory.fresh budget)).run = .ok (.ok initial))
    {operations : List Operation} (ran : initial.performAll operations = .ok heap) :
    heap.Separated budget := by
  have ready := ready_of_create created
  exact (ready.performAll ran).separated
    (windowed_of_performAll ready (windowed_of_create created) ran)

/-- The old space is granted room for the third object, and refused room for the first two. -/
def growingOperations : List Operation :=
  [.allocate 64 0, .allocate 64 0, .allocate 64 0, .minorCycle .fresh crowdedRoots,
    .minorCycle .fresh crowdedRoots, .majorCycle .fresh crowdedRoots, .allocate 24 1]

theorem separated_of_growing : ∃ initial heap : Heap WindowedMemory,
    (create crowdedSettings (WindowedMemory.fresh (some 600))).run = .ok (.ok initial) ∧
      initial.performAll growingOperations = .ok heap ∧ heap.old.capacity = 72 ∧
      heap.directory.live = 4 ∧ heap.Separated (some 600) := by
  obtain ⟨initial, heap, created, ran, facts⟩ := runs_of_leadsTo
    (show leadsTo crowdedSettings (WindowedMemory.fresh (some 600)) growingOperations
      (fun heap => decide (heap.old.capacity = 72 ∧ heap.directory.live = 4)) = true
      by decide +kernel)
  obtain ⟨grown, live⟩ := of_decide_eq_true facts
  exact ⟨initial, heap, created, ran, grown, live, separated_of_performAll created ran⟩

end Heap

end Tenure
