import Tenure.Proofs.Heap.Attainable

/-!
# Records and residents agree

Where an object lies is written down twice: in its record, and among the residents of a
space. The two are updated in separate steps, and while survivors are moved an object is a
resident of two spaces. Between operations both say the same, the directory knows its free
slots, and the card table covers the old space.
-/

set_option autoImplicit false

namespace Tenure.Heap

variable {Source : Type}

/-- What the directory, the spaces and the card table say about each other. -/
structure Agrees (heap : Heap Source) : Prop where
  listed_once : ∀ handle, heap.directory.isLive handle = true →
    heap.residents.count handle = 1
  located : ∀ handle record, heap.directory.get? handle = some record →
    ∃ resident ∈ (heap.arena record.space).residents.toList,
      resident.handle = handle ∧ resident.size = record.size ∧
        record.address = (heap.arena record.space).base + resident.offset
  live : ∀ handle ∈ heap.residents, heap.directory.isLive handle = true
  generation : ∀ handle record, heap.directory.get? handle = some record →
    record.generation = record.space.generation
  packed : ∀ space before resident rest,
    (heap.arena space).residents.toList = before ++ resident :: rest →
    resident.offset = (before.map Resident.size).sum
  used_eq : ∀ space,
    (heap.arena space).used = ((heap.arena space).residents.toList.map Resident.size).sum
  used_le : ∀ space, (heap.arena space).used ≤ (heap.arena space).capacity
  live_eq : heap.directory.live =
    heap.directory.entries.toList.countP fun entry => entry.record.isSome
  free_nodup : heap.directory.free.Nodup
  free_iff : ∀ index, (∃ slot ∈ heap.directory.free, slot.toNat = index) ↔
    ∃ epoch, heap.directory.entries[index]? = some { epoch, record := none }
  covered_iff : ∀ address, (∃ index, heap.cards.InCard index address) ↔
    heap.old.base ≤ address ∧ address < heap.old.base + heap.old.capacity

theorem Consistent.agrees {heap : Heap Source} (consistent : heap.Consistent) : heap.Agrees where
  listed_once := by
    intro handle live
    apply List.count_eq_one_of_mem consistent.nodup_residents
    exact consistent.mem_residents.mpr live
  located := by
    intro handle record found
    obtain ⟨resident, member, named, size, address⟩ :=
      (consistent.fills record.space).exists_resident found rfl
    exact ⟨resident, member, named, size.symm, address⟩
  live := fun _ member => consistent.mem_residents.mp member
  generation := consistent.generation
  packed := by
    intro space before resident rest split
    have packed := (consistent.fills space).wellFormed.packed
    rw [split] at packed
    rw [packed.offset_eq, Nat.zero_add, extentOf_eq_sum]
  used_eq := by
    intro space
    rw [(consistent.fills space).wellFormed.used_eq, extentOf_eq_sum]
  used_le := fun space => (consistent.fills space).wellFormed.used_le
  live_eq := consistent.directory.live_eq
  free_nodup := consistent.directory.free_nodup
  free_iff := fun _ => consistent.directory.exists_free_iff
  covered_iff := by
    intro address
    rw [consistent.cards.wellFormed.exists_inCard_iff, CardTable.Covers, consistent.cards.base,
      consistent.cards.extent]

theorem agrees_of_attainable [MemorySource Source] {heap : Heap Source}
    (attainable : heap.Attainable) : heap.Agrees :=
  attainable.sound.consistent.agrees

/-- A minor cycle keeps an object because a promoted one references it, and reclaims
another one, whose slot is free then. -/
theorem agrees_after_reclaiming : ∃ heap : Heap WindowedMemory,
    heap.Attainable ∧ heap.residents = [secondHandle, firstHandle] ∧
      heap.directory.free = [2] ∧ heap.Agrees := by
  obtain ⟨heap, attainable, facts⟩ := attainable_of_leadsTo
    (show leadsTo smallSettings (WindowedMemory.fresh none)
      (promotingOperations ++ [.minorCycle .fresh []])
      (fun heap => decide (heap.residents = [secondHandle, firstHandle] ∧
        heap.directory.free = [2])) = true by decide +kernel)
  obtain ⟨residents, free⟩ := of_decide_eq_true facts
  exact ⟨heap, attainable, residents, free, agrees_of_attainable attainable⟩

end Tenure.Heap
