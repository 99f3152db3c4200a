import Tenure.Proofs.Cards.Holders
import Tenure.Proofs.Directory.Bounds
import Tenure.Proofs.Heap.Attainable

/-!
# What the operations leave alone

An operation that is refused leaves the heap as it was: no slot is lost, no epoch passes,
no card gets dirty and the barrier counts nothing. A store that is accepted changes one
field. It passes the barrier once, and the barrier marks a card exactly when an old object
is given a young one.
-/

set_option autoImplicit false

namespace Tenure

/-- A record without its fields: the place of the object, its age and its size. -/
def Record.bare (record : Record) : Record := { record with fields := [] }

namespace Heap

variable {Source : Type} {heap after : Heap Source}

/-- An operation was refused, and this is the heap afterwards. Loads never touch it. -/
inductive Refused (heap : Heap Source) : Heap Source → Prop where
  | allocate {size fieldCount : Nat} {after : Heap Source}
      (ran : heap.tryAllocate size fieldCount = .ok (none, after)) : Refused heap after
  | load {holder : Handle} {index : Nat} {failure : Failure}
      (ran : heap.load holder index = .error failure) : Refused heap heap
  | store {holder : Handle} {index : Nat} {value : Option Handle} {failure : Failure}
      {after : Heap Source}
      (ran : heap.store holder index value = .ok (.error failure, after)) : Refused heap after
  | setThreshold {threshold : Nat} {failure : Failure} {after : Heap Source}
      (ran : heap.setThreshold threshold = (.error failure, after)) : Refused heap after

theorem Refused.unchanged (refused : heap.Refused after) : after = heap := by
  cases refused with
  | allocate ran =>
      rcases tryAllocate_eq_ok ran with ⟨_, same⟩ | ⟨_, _, placed, _⟩
      · exact same
      · cases placed
  | load ran => rfl
  | store ran =>
      rcases store_eq_ok ran with ⟨_, _, same⟩ | ⟨_, _, _, _, _, accepted, _⟩
      · exact same
      · cases accepted
  | setThreshold ran =>
      unfold Heap.setThreshold at ran
      split at ran
      · cases ran
      · cases ran
        rfl

/-- A store lets an old object reference a young one. -/
def LinksOldToYoung (heap : Heap Source) (holder : Handle) (value : Option Handle) : Prop :=
  heap.directory.generation? holder = some .old ∧
    ∃ target, value = some target ∧ heap.directory.isYoung target = true

/-- The card that holds an address is dirty afterwards, and the others are as before. -/
structure MarksCardOf (table : CardTable) (address : Nat) (after : CardTable) : Prop where
  sameCards : table.SameCards after
  covered : ∃ index, table.InCard index address
  isDirty_iff : ∀ index, after.isDirty index = true ↔
    table.isDirty index = true ∨ table.InCard index address

/-- A store changes one field and nothing else about the objects. -/
structure StoresField (heap : Heap Source) (holder : Handle) (index : Nat)
    (value : Option Handle) (after : Heap Source) : Prop where
  loaded : after.load holder index = .ok value
  others : ∀ other field, (other ≠ holder ∨ field ≠ index) →
    after.load other field = heap.load other field
  records : ∀ other, (after.directory.get? other).map Record.bare =
    (heap.directory.get? other).map Record.bare
  slots : after.directory.free = heap.directory.free ∧
    after.directory.live = heap.directory.live ∧
    after.directory.occupancy = heap.directory.occupancy
  frame : after = { heap with
    directory := after.directory
    cards := after.cards
    barrier := after.barrier }
  invocations : after.barrier.invocations = heap.barrier.invocations + 1
  marked : heap.LinksOldToYoung holder value → ∃ record,
    heap.directory.get? holder = some record ∧
      MarksCardOf heap.cards record.address after.cards ∧
      after.barrier.cardsDirtied = heap.barrier.cardsDirtied + 1
  unmarked : ¬ heap.LinksOldToYoung holder value →
    after.cards = heap.cards ∧ after.barrier.cardsDirtied = heap.barrier.cardsDirtied

/-! ## The field -/

section Field

variable {holder other : Handle} {index field : Nat} {value : Option Handle} {record : Record}

theorem load_withField_self (found : heap.directory.get? holder = some record)
    (inside : index < record.fields.length) (cards : CardTable) (barrier : BarrierCounts) :
    (heap.withField holder index value cards barrier).load holder index = .ok value := by
  unfold load
  rw [get?_withField, if_pos rfl, found]
  simp [inside]

theorem load_withField_other (different : other ≠ holder ∨ field ≠ index) (cards : CardTable)
    (barrier : BarrierCounts) :
    (heap.withField holder index value cards barrier).load other field =
      heap.load other field := by
  unfold load
  rw [get?_withField]
  by_cases same : other = holder
  · have apart : index ≠ field := fun equal =>
      different.elim (fun unequal => unequal same) fun unequal => unequal equal.symm
    subst same
    rw [if_pos rfl]
    cases heap.directory.get? other with
    | none => rfl
    | some record =>
        simp only [Option.map_some]
        rw [List.getElem?_set_ne apart, List.length_set]
  · rw [if_neg same]

theorem bare_withField (heap : Heap Source) (holder : Handle) (index : Nat)
    (value : Option Handle) (cards : CardTable) (barrier : BarrierCounts) (other : Handle) :
    ((heap.withField holder index value cards barrier).directory.get? other).map Record.bare =
      (heap.directory.get? other).map Record.bare := by
  rw [get?_withField]
  split
  · rename_i same
    rw [same, Option.map_map]
    rfl
  · rfl

theorem slots_withField (heap : Heap Source) (holder : Handle) (index : Nat)
    (value : Option Handle) (cards : CardTable) (barrier : BarrierCounts) :
    (heap.withField holder index value cards barrier).directory.free = heap.directory.free ∧
      (heap.withField holder index value cards barrier).directory.live = heap.directory.live ∧
      (heap.withField holder index value cards barrier).directory.occupancy =
        heap.directory.occupancy := by
  refine ⟨?_, ?_, Directory.occupancy_update _ _ _⟩
  · unfold withField Directory.update
    split <;> rfl
  · unfold withField Directory.update
    split <;> rfl

end Field

/-! ## The barrier -/

theorem createsOldToYoung_iff {holder : Handle} {value : Option Handle} {record : Record}
    {generation : Option Generation} (found : heap.directory.get? holder = some record)
    (valued : heap.valueGeneration value = .ok generation) :
    createsOldToYoung record.generation generation = true ↔
      heap.LinksOldToYoung holder value := by
  rw [createsOldToYoung, Bool.and_eq_true, decide_eq_true_eq, LinksOldToYoung,
    Directory.generation?_eq_some_iff_of_get? found]
  apply and_congr_right
  intro _
  cases value with
  | none =>
      cases valued
      simp
  | some target =>
      rw [(valueGeneration_some_eq_ok valued).1]
      simp [Directory.isYoung]

theorem Consistent.marksCardOf (consistent : heap.Consistent) {holder : Handle}
    {record : Record} (found : heap.directory.get? holder = some record)
    (old : record.generation = .old) {cards : CardTable} {marked : Bool}
    (ran : heap.cards.mark record.address = .ok (marked, cards)) :
    marked = true ∧ MarksCardOf heap.cards record.address cards := by
  have covered := consistent.covers found ((consistent.old_iff found).mp old)
  have wellFormed := consistent.cards.wellFormed
  constructor
  · rcases CardTable.mark_eq_ok ran with ⟨_, uncovered, _⟩ | ⟨marked, _⟩
    · exact absurd covered uncovered
    · exact marked
  · constructor
    · exact CardTable.sameCards_of_mark ran
    · exact wellFormed.exists_inCard_iff.mpr covered
    · intro index
      rw [CardTable.isDirty_of_mark ran, wellFormed.inCard_iff]

theorem Sound.storesField (sound : heap.Sound) {holder : Handle} {index : Nat}
    {value : Option Handle} (ran : heap.store holder index value = .ok (.ok (), after)) :
    heap.StoresField holder index value after := by
  rcases store_eq_ok ran with
    ⟨_, refused, _⟩ | ⟨generation, record, dirtied, cards, barrier, _, checked, passed, rfl⟩
  · cases refused
  obtain ⟨valued, found, inside⟩ := checkStore_eq_ok checked
  have links := createsOldToYoung_iff found valued
  obtain ⟨invocations, counted⟩ := barrier_of_onStore passed
  refine
    { loaded := load_withField_self found inside cards barrier
      others := fun _ _ different => load_withField_other different cards barrier
      records := bare_withField heap holder index value cards barrier
      slots := slots_withField heap holder index value cards barrier
      frame := rfl
      invocations
      marked := fun linked => ?_
      unmarked := fun unlinked => ?_ }
  · rcases onStore_eq_ok passed with ⟨_, mark⟩ | ⟨harmless, _⟩
    · have old := (Directory.generation?_eq_some_iff_of_get? found).mp linked.1
      obtain ⟨rfl, marks⟩ := sound.consistent.marksCardOf found old mark
      exact ⟨record, found, marks, counted⟩
    · rw [links.mpr linked] at harmless
      cases harmless
  · rcases onStore_eq_ok passed with ⟨creates, _⟩ | ⟨_, rfl, rfl⟩
    · exact absurd (links.mp creates) unlinked
    · exact ⟨rfl, counted⟩

/-! ## All operations -/

/-- What the operations of the running program leave alone. An allocation is refused only
where eden lacks the room or every slot is taken. -/
structure Confined (heap : Heap Source) : Prop where
  refused : ∀ after, heap.Refused after → after = heap
  unplaced : ∀ size fieldCount after, heap.tryAllocate size fieldCount = .ok (none, after) →
    heap.eden.capacity < heap.eden.used + roundedSize size ∨
      Directory.slotLimit ≤ heap.directory.live
  stored : ∀ holder index value after,
    heap.store holder index value = .ok (.ok (), after) →
    heap.StoresField holder index value after

theorem Sound.crowded_of_unplaced (sound : heap.Sound) {size fieldCount : Nat}
    (ran : heap.tryAllocate size fieldCount = .ok (none, after)) :
    heap.eden.capacity < heap.eden.used + roundedSize size ∨
      Directory.slotLimit ≤ heap.directory.live := by
  rcases tryAllocate_eq_none ran with ⟨room, aligned, crowded⟩ | occupied
  · obtain ⟨_, rfl⟩ := alignSize_eq_ok_iff.mp aligned
    exact .inl crowded
  · apply Or.inr
    by_contra few
    obtain ⟨handle, fresh⟩ := sound.consistent.directory.exists_fresh (Nat.lt_of_not_le few)
    rw [occupied] at fresh
    cases fresh

/-- After any operations, what is refused changes nothing and a store changes one field. -/
theorem operations_confined [MemorySource Source] (attainable : heap.Attainable) :
    heap.Confined := by
  have sound := attainable.sound
  constructor
  · intro after refused
    exact refused.unchanged
  · intro size fieldCount after ran
    exact sound.crowded_of_unplaced ran
  · intro holder index value after ran
    exact sound.storesField ran

/-- A promoted object with one field is given a young one, and a second field is refused. -/
theorem operations_confined_after_promotion :
    ∃ (heap linked refused : Heap WindowedMemory) (failure : Failure), heap.Attainable ∧
      heap.LinksOldToYoung firstHandle (some secondHandle) ∧
      heap.store firstHandle 0 (some secondHandle) = .ok (.ok (), linked) ∧
      heap.store firstHandle 1 none = .ok (.error failure, refused) ∧ heap.Confined := by
  obtain ⟨heap, attainable, facts⟩ := attainable_of_leadsTo
    (show leadsTo smallSettings (WindowedMemory.fresh none) promotingOperations
      (fun heap => decide (heap.directory.generation? firstHandle = some .old) &&
        heap.directory.isYoung secondHandle &&
        (heap.store firstHandle 0 (some secondHandle)).toOption.any (fun (answer, _) =>
          answer.isOk) &&
        (heap.store firstHandle 1 none).toOption.any fun (answer, _) => !answer.isOk) = true
      by decide +kernel)
  simp only [Bool.and_eq_true] at facts
  obtain ⟨⟨⟨old, young⟩, linked⟩, refused⟩ := facts
  obtain ⟨⟨accepted, after⟩, ran, isOk⟩ := Checked.eq_ok_of_any linked
  obtain ⟨⟨rejected, same⟩, tried, isError⟩ := Checked.eq_ok_of_any refused
  have links : heap.LinksOldToYoung firstHandle (some secondHandle) :=
    ⟨of_decide_eq_true old, secondHandle, rfl, young⟩
  cases accepted with
  | error failure => cases isOk
  | ok _ =>
      cases rejected with
      | error failure =>
          exact ⟨heap, after, same, failure, attainable, links, ran, tried,
            operations_confined attainable⟩
      | ok _ => cases isError

end Heap

end Tenure
