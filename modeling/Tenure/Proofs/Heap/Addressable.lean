import Tenure.Proofs.Arena.Bounds
import Tenure.Proofs.Cards.Bounds
import Tenure.Proofs.Directory.Bounds
import Tenure.Proofs.Heap.Reshaping
import Tenure.Proofs.Memory

/-!
# Heaps inside the address space

Four windows hold the spaces of a heap, so its addresses and the bytes committed for them
stay far below the limit of words. Only the old space grows, within its window. What the
live objects take is bounded by the windows, too, and with it their number.
-/

set_option autoImplicit false

namespace Tenure.Heap

open WindowedMemory (window)
open Checked (Answers answers_pure)

variable {Source : Type}

/-! ## Windows -/

/-- Each space lies in one of the first four windows, and only the old space has more
committed than it began with. -/
structure Addressable (heap : Heap WindowedMemory) : Prop where
  base_le : ∀ space, (heap.arena space).base ≤ 4 * window
  capacity_le : ∀ space, (heap.arena space).capacity ≤ window
  committed_le : heap.memory.committed ≤ 3 * window + (heap.arena .old).capacity
  cardSize_le : 2 * heap.cards.cardSize ≤ Word.limit
  stepBudget_pos : 0 < heap.settings.stepBudget.toNat

namespace Addressable

variable {heap after : Heap WindowedMemory}

theorem of_same (addressable : heap.Addressable) (same : heap.SameSpaces after) :
    after.Addressable where
  base_le := fun space => (same.base space).symm ▸ addressable.base_le space
  capacity_le := fun space => (same.capacity space).symm ▸ addressable.capacity_le space
  committed_le := by
    rw [same.memory, same.capacity]
    exact addressable.committed_le
  cardSize_le := same.cardSize.symm ▸ addressable.cardSize_le
  stepBudget_pos := same.settings.symm ▸ addressable.stepBudget_pos

theorem arena (addressable : heap.Addressable) (space : Space) :
    (heap.arena space).Addressable := by
  have base := addressable.base_le space
  have capacity := addressable.capacity_le space
  simp only [Arena.Addressable, Word.limit, window] at base capacity ⊢
  omega

theorem cards (addressable : heap.Addressable) (spans : heap.cards.Spans heap.old) :
    heap.cards.Addressable := by
  have base := addressable.base_le .old
  have capacity := addressable.capacity_le .old
  have cardSize := addressable.cardSize_le
  simp only [Heap.arena, ← spans.base, ← spans.extent] at base capacity
  simp only [CardTable.Addressable, Word.limit, window] at base capacity cardSize ⊢
  omega

end Addressable

/-! ## Growth -/

theorem extend_def (memory : WindowedMemory) (space : Space) (base current additional : Nat) :
    MemorySource.extend memory space base current additional =
      memory.extend current additional := rfl

namespace Addressable

variable {heap after : Heap WindowedMemory}

theorem growOld (addressable : heap.Addressable) (spans : heap.cards.Spans heap.old)
    {additional : Nat} {granted : Bool} (ran : heap.growOld additional = .ok (granted, after)) :
    after.Addressable := by
  obtain ⟨larger, capacity, extended⟩ := growOld_eq_ok spans ran
  have initial := addressable.capacity_le .old
  have before := addressable.committed_le
  rw [extend_def] at extended
  have bounds : after.old.capacity ≤ window ∧
      after.memory.committed ≤ 3 * window + after.old.capacity := by
    rcases WindowedMemory.extend_eq_ok extended with ⟨rfl, same, _⟩ | ⟨rfl, within, committed, _⟩
    · simp only [Bool.false_eq_true, ↓reduceIte] at capacity
      rw [capacity, same]
      exact ⟨initial, before⟩
    · simp only [↓reduceIte] at capacity
      simp only [Heap.arena] at before
      omega
  refine ⟨fun space => (larger.base space).symm ▸ addressable.base_le space, fun space => ?_,
    bounds.2, larger.cardSize.symm ▸ addressable.cardSize_le,
    larger.settings.symm ▸ addressable.stepBudget_pos⟩
  by_cases same : space = .old
  · exact same ▸ bounds.1
  · rw [larger.arena_of_young same]
    exact addressable.capacity_le space

theorem of_grows (addressable : heap.Addressable) (spans : heap.cards.Spans heap.old)
    (grows : heap.Grows after) : after.Addressable := by
  cases grows with
  | unasked => exact addressable
  | asked ran => exact addressable.growOld spans ran

theorem of_reshapes (addressable : heap.Addressable) (reshapes : heap.Reshapes after) :
    after.Addressable := by
  induction reshapes with
  | same same => exact addressable.of_same same
  | grown spans grows => exact addressable.of_grows spans grows
  | trans _ _ first second => exact second (first addressable)

theorem answers_growOld (addressable : heap.Addressable) (spans : heap.cards.Spans heap.old)
    (additional : Nat) : Answers (heap.growOld additional) := by
  have capacity := addressable.capacity_le .old
  have committed := addressable.committed_le
  simp only [Heap.arena] at capacity committed
  have room : heap.memory.committed + window < Word.limit := by
    simp only [window, Word.limit] at capacity committed ⊢
    omega
  refine Answers.bind (WindowedMemory.answers_extend room _ _) fun extension extended => ?_
  obtain ⟨granted, memory⟩ := extension
  rcases WindowedMemory.extend_eq_ok extended with ⟨rfl, _, _⟩ | ⟨rfl, within, _⟩
  · exact answers_pure _
  · have fits : heap.old.capacity + additional < Word.limit := by
      simp only [window, Word.limit] at within ⊢
      omega
    refine (Arena.answers_grow fits).bind fun old grown => ?_
    simp only [Arena.grow, Checked.bind_eq_ok_iff, Word.add_eq_ok_iff,
      Checked.pure_eq_ok_iff] at grown
    obtain ⟨_, ⟨_, rfl⟩, rfl⟩ := grown
    have small : heap.old.capacity + additional ≤ Word.largestTable := by
      simp only [window, Word.largestTable] at within ⊢
      omega
    exact (spans.wellFormed.answers_resize small).bind fun _ _ => answers_pure _

theorem answers_placementInOld (addressable : heap.Addressable)
    (spans : heap.cards.Spans heap.old) (fills : heap.directory.Fills .old heap.old) {size : Nat}
    (small : size + granule < Word.limit) : Answers (heap.placementInOld size) := by
  refine (fills.wellFormed.answers_placement? (addressable.arena .old) small).bind
    fun place _ => ?_
  cases place with
  | some place => exact answers_pure _
  | none =>
      refine (answers_alignSize small).bind fun aligned _ => ?_
      refine (addressable.answers_growOld spans _).bind fun growth grew => ?_
      obtain ⟨granted, grown⟩ := growth
      cases granted with
      | false => exact answers_pure _
      | true =>
          have refilled : grown.directory.Fills .old grown.old :=
            (growOld_eq_ok spans grew).1.fills fills
          have still := (addressable.growOld spans grew).arena .old
          exact (refilled.wellFormed.answers_placement? still small).bind
            fun _ _ => answers_pure _

end Addressable

/-! ## New heaps -/

theorem validate_eq_ok {settings : Settings} (valid : settings.validate = .ok ()) :
    Word.isPowerOfTwo settings.cardSize.toNat = true ∧ settings.stepBudget ≠ 0 := by
  unfold Settings.validate at valid
  cases clean : settings.fault? with
  | some fault =>
      rw [clean] at valid
      cases valid
  | none =>
      simp only [Settings.fault?, ite_eq_iff, reduceCtorEq, and_false, false_or,
        Bool.not_eq_true', Bool.not_eq_false] at clean
      obtain ⟨power, _, _, _, _, _, _, _, budget, _⟩ := clean
      exact ⟨power, budget⟩

/-- A power of two that is a word is at most half of the limit. -/
theorem two_mul_le_of_isPowerOfTwo {value : Nat} (power : Word.isPowerOfTwo value = true)
    (word : value < Word.limit) : 2 * value ≤ Word.limit := by
  obtain ⟨exponent, rfl⟩ := Word.isPowerOfTwo_iff.mp power
  have limit : Word.limit = 2 ^ 64 := rfl
  rw [limit] at word ⊢
  have below : exponent < 64 := (Nat.pow_lt_pow_iff_right (by decide)).mp word
  calc 2 * Nat.pow 2 exponent
      = 2 ^ (exponent + 1) := by rw [Nat.pow_succ, Nat.mul_comm]; rfl
    _ ≤ 2 ^ 64 := Nat.pow_le_pow_right (by decide) below

theorem reserveArena_window {memory rest : WindowedMemory} {space : Space} {capacity : Nat}
    {arena : Arena}
    (ran : (reserveArena memory space capacity).run = .ok (.ok (arena, rest))) :
    arena.base = memory.nextWindow ∧ arena.capacity ≤ window ∧
      rest.nextWindow = memory.nextWindow + window ∧
      rest.committed = memory.committed + arena.capacity ∧
      rest.budget = memory.budget ∧ rest.WithinBudget := by
  obtain ⟨base, reserved, rfl⟩ := reserveArena_eq_ok ran
  obtain ⟨within, rfl, next, committed, budget⟩ := WindowedMemory.reserve_eq_ok reserved
  exact ⟨rfl, within, next, committed, budget⟩

theorem addressable_of_create {settings : Settings} {budget : Option Nat}
    {heap : Heap WindowedMemory}
    (ran : (create settings (WindowedMemory.fresh budget)).run = .ok (.ok heap)) :
    heap.Addressable := by
  obtain ⟨_, _, _, creation⟩ := creation_of_create ran
  obtain ⟨power, positive⟩ := validate_eq_ok creation.valid
  obtain ⟨edenBase, edenCapacity, edenNext, edenCommitted, _⟩ := reserveArena_window creation.eden
  obtain ⟨baseA, capacityA, nextA, committedA, _⟩ := reserveArena_window creation.survivorA
  obtain ⟨baseB, capacityB, nextB, committedB, _⟩ := reserveArena_window creation.survivorB
  obtain ⟨oldBase, oldCapacity, _, oldCommitted, _⟩ := reserveArena_window creation.old
  obtain ⟨_, _, _, cardSize⟩ := CardTable.create_eq_ok creation.cards
  have first : (WindowedMemory.fresh budget).nextWindow = window := rfl
  have uncommitted : (WindowedMemory.fresh budget).committed = 0 := rfl
  refine ⟨fun space => ?_, fun space => ?_, ?_, ?_, ?_⟩
  · cases space with
    | eden => simp only [arena]; omega
    | survivor side => cases side <;> simp only [arena, survivor] <;> omega
    | old => simp only [arena]; omega
  · cases space with
    | eden => exact edenCapacity
    | survivor side =>
        cases side with
        | a => exact capacityA
        | b => exact capacityB
    | old => exact oldCapacity
  · simp only [arena]
    omega
  · rw [cardSize]
    exact two_mul_le_of_isPowerOfTwo power settings.cardSize.toNat_lt
  · rw [creation.settings_eq]
    exact Nat.pos_of_ne_zero fun zero => positive (UInt64.toNat_inj.mp zero)

/-! ## Storage -/

theorem Consistent.storage_arena {heap : Heap Source} (consistent : heap.Consistent)
    (space : Space) :
    heap.directory.storage (heap.arena space).handles = (heap.arena space).used := by
  have fills := consistent.fills space
  rw [fills.wellFormed.used_eq]
  refine Directory.storage_residents fun resident member => ?_
  obtain ⟨record, found, place⟩ := fills.located resident member
  rw [Directory.sizeOf_of_get? found]
  exact congrArg (fun place => place.2.2) place

theorem Consistent.size_le {heap : Heap Source} (consistent : heap.Consistent) {handle : Handle}
    {record : Record} (found : heap.directory.get? handle = some record) :
    record.size ≤ (heap.arena record.space).capacity := by
  have fills := consistent.fills record.space
  obtain ⟨resident, member, _, size, _⟩ := fills.exists_resident found rfl
  have ends := fills.wellFormed.finish_le_used member
  have inside := fills.wellFormed.used_le
  unfold Resident.finish at ends
  omega

theorem Addressable.storage_le {heap : Heap WindowedMemory} (addressable : heap.Addressable)
    (consistent : heap.Consistent) {handles : List Handle} (distinct : handles.Nodup)
    (contained : handles ⊆ heap.residents) :
    heap.directory.storage handles ≤ 4 * window := by
  have used : ∀ space, heap.directory.storage (heap.arena space).handles ≤ window := by
    intro space
    rw [consistent.storage_arena]
    exact Nat.le_trans (consistent.fills space).wellFormed.used_le (addressable.capacity_le space)
  have all : heap.directory.storage heap.residents ≤ 4 * window := by
    have eden := used .eden
    have first := used (.survivor .a)
    have second := used (.survivor .b)
    have old := used .old
    simp only [residents, Space.all, List.flatMap_cons, List.flatMap_nil,
      Directory.storage_append, Directory.storage_nil]
    omega
  exact Nat.le_trans (Handle.sum_le_of_subset (fun _ => Nat.le_refl _) distinct contained) all

/-- Every object takes a granule, so there are far fewer objects than slots. -/
theorem Addressable.live_lt {heap : Heap WindowedMemory} (addressable : heap.Addressable)
    (consistent : heap.Consistent) : heap.directory.live < Directory.slotLimit := by
  have granules : ∀ handles, (∀ handle ∈ handles, heap.directory.isLive handle = true) →
      handles.length * granule ≤ heap.directory.storage handles := by
    intro handles live
    induction handles with
    | nil => exact Nat.zero_le _
    | cons handle rest ih =>
        obtain ⟨record, found⟩ := Directory.isLive_iff.mp (live handle List.mem_cons_self)
        have whole := consistent.wholeGranules found
        have size := Nat.le_of_dvd whole.1 whole.2
        have later := ih fun other member => live other (List.mem_cons_of_mem _ member)
        rw [List.length_cons, Nat.succ_mul, Directory.storage_cons,
          Directory.sizeOf_of_get? found]
        omega
  have fewer := granules heap.residents fun handle => consistent.mem_residents.mp
  have bounded := addressable.storage_le consistent consistent.nodup_residents
    (List.Subset.refl _)
  rw [consistent.length_residents] at fewer
  simp only [granule, window, Directory.slotLimit] at fewer bounded ⊢
  omega

end Tenure.Heap
