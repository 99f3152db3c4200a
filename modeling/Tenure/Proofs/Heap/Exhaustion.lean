import Tenure.Proofs.Heap.Completion
import Tenure.Proofs.Heap.Reclamation

/-!
# What a minor cycle leaves in eden

A survivor is left in eden only when the old space has no room for it and windowed memory
refuses to let it grow that far. Smaller survivors may come after it, and the old space may
grow for them, but never by as much as the first one needed. So at the end of the cycle both
generations are exhausted: nothing that lies in eden fits into the old space.
-/

set_option autoImplicit false

namespace Tenure.Heap

variable {heap after enlarged : Heap WindowedMemory} {size : Nat} {handle : Handle}
  {record : Record}

/-- The old space has no room for so many bytes, and it cannot grow by them, nor by the half
that it asks for at least. -/
structure Refuses (heap : Heap WindowedMemory) (size : Nat) : Prop where
  full : heap.old.capacity < heap.old.used + size
  exceeds : heap.memory.Exceeds heap.old.capacity (max size (heap.old.capacity / 2))

/-- Nothing in eden has a place in the old space. -/
def Exhausted (heap : Heap WindowedMemory) : Prop :=
  ∀ handle record, heap.directory.get? handle = some record → record.space = .eden →
    heap.Refuses record.size

namespace Refuses

theorem of_same (refuses : heap.Refuses size) (old : after.old = heap.old)
    (memory : after.memory = heap.memory) : after.Refuses size := by
  obtain ⟨full, exceeds⟩ := refuses
  exact ⟨old ▸ full, old ▸ memory ▸ exceeds⟩

/-- The old space grows only by less than what it refused, so for less than that. -/
theorem of_growOld {aligned : Nat} (refuses : heap.Refuses size)
    (spans : heap.cards.Spans heap.old)
    (ran : heap.growOld (max aligned (heap.old.capacity / 2)) = .ok (true, after)) :
    aligned < size ∧ heap.old.capacity / 2 < size ∧ after.old.used = heap.old.used ∧
      after.old.capacity = heap.old.capacity + max aligned (heap.old.capacity / 2) ∧
      after.memory.Exceeds after.old.capacity (max size (after.old.capacity / 2)) := by
  obtain ⟨larger, grown, extended⟩ := growOld_eq_ok spans ran
  simp only [↓reduceIte] at grown
  have less := refuses.exceeds.lt_of_granted extended
  obtain ⟨_, _, old⟩ := larger.old
  have used : after.old.used = heap.old.used := by rw [old]
  rcases WindowedMemory.extend_eq_ok extended with ⟨refused, _⟩ | ⟨_, _, committed, budget, _⟩
  · cases refused
  · refine ⟨by omega, by omega, used, grown, ?_⟩
    exact refuses.exceeds.mono budget (by omega) (by omega) (by omega)

end Refuses

theorem unchanged_of_refused {additional : Nat}
    (ran : heap.growOld additional = .ok (false, after)) :
    after = heap ∧ heap.memory.Exceeds heap.old.capacity additional := by
  unfold growOld at ran
  rw [Checked.bind_eq_ok_iff] at ran
  obtain ⟨⟨granted, memory⟩, extended, ran⟩ := ran
  cases granted with
  | false =>
      simp only [Bool.false_eq_true, ↓reduceIte, Checked.pure_eq_ok_iff, Prod.mk.injEq,
        true_and] at ran
      rcases WindowedMemory.extend_eq_ok extended with ⟨_, rfl, exceeds⟩ | ⟨granted, _⟩
      · exact ⟨ran.symm, exceeds⟩
      · cases granted
  | true =>
      simp only [↓reduceIte, Checked.bind_eq_ok_iff, Checked.pure_eq_ok_iff, Prod.mk.injEq,
        Bool.true_eq_false, false_and, and_false, exists_false] at ran

/-! ## One survivor -/

theorem old_moved (heap : Heap WindowedMemory) (handle : Handle) (place : Placement) (age : Nat) :
    (heap.moved handle .old place age).old = heap.old.push handle place.size :=
  heap.arena_moved handle .old .old place age

theorem refuses_moved {side : Side} {place : Placement} {age : Nat}
    (refuses : heap.Refuses size) :
    (heap.moved handle (.survivor side) place age).Refuses size :=
  refuses.of_same (heap.arena_moved handle (.survivor side) .old place age)
    (sameSpaces_moved ..).memory

namespace PlacesInOld

/-- What finds a place in the old space leaves no room for what did not. -/
theorem refuses_moved {other : Nat} {place : Placement} {age : Nat}
    (places : heap.PlacesInOld other (some place) enlarged) (spans : heap.cards.Spans heap.old)
    (refuses : heap.Refuses size) :
    (enlarged.moved handle .old place age).Refuses size := by
  have memory := (enlarged.sameSpaces_moved handle .old place age).memory
  have full := refuses.full
  cases places with
  | room placed =>
      refine ⟨?_, ?_⟩
      · rw [old_moved, Arena.capacity_push, Arena.used_push]
        omega
      · rw [old_moved, Arena.capacity_push, memory]
        exact refuses.exceeds
  | @grown aligned _ _ unplaced rounded grew placed =>
      obtain ⟨_, half, used, capacity, exceeds⟩ := refuses.of_growOld spans grew
      obtain ⟨same, sameRounded, beyond⟩ := Arena.placement?_eq_none unplaced
      obtain ⟨placeRounded, _, _⟩ := Arena.placement?_eq_some placed
      rw [rounded, Except.ok.injEq] at sameRounded placeRounded
      subst sameRounded
      refine ⟨?_, ?_⟩
      · rw [old_moved, Arena.capacity_push, Arena.used_push, used, capacity]
        omega
      · rw [old_moved, Arena.capacity_push, memory]
        exact exceeds

/-- Room that is asked for in vain is still missing. -/
theorem refuses {other : Nat} (places : heap.PlacesInOld other none enlarged)
    (spans : heap.cards.Spans heap.old) (refuses : heap.Refuses size) :
    enlarged.Refuses size := by
  have full := refuses.full
  cases places with
  | @grown aligned _ _ unplaced rounded grew placed =>
      obtain ⟨less, _, used, capacity, exceeds⟩ := refuses.of_growOld spans grew
      obtain ⟨_, sameRounded, beyond⟩ := Arena.placement?_eq_none placed
      rw [rounded, Except.ok.injEq] at sameRounded
      subst sameRounded
      exact ⟨by omega, exceeds⟩
  | refused _ _ refused => exact (unchanged_of_refused refused).1 ▸ refuses

/-- The old space that finds no place is as it was, and there was none to be had. -/
theorem unplaced (places : heap.PlacesInOld size none enlarged)
    (spans : heap.cards.Spans heap.old) (whole : WholeGranules size)
    (inside : heap.old.used ≤ heap.old.capacity) : enlarged = heap ∧ heap.Refuses size := by
  cases places with
  | @grown aligned _ _ _ rounded grew placed =>
      -- The old space grew by the size at least, so there would be a place.
      obtain ⟨larger, capacity, _⟩ := growOld_eq_ok spans grew
      obtain ⟨_, _, old⟩ := larger.old
      obtain ⟨_, sameRounded, beyond⟩ := Arena.placement?_eq_none placed
      rw [rounded, Except.ok.injEq] at sameRounded
      subst sameRounded
      have used : enlarged.old.used = heap.old.used := by rw [old]
      simp only [↓reduceIte] at capacity
      omega
  | @refused aligned _ full rounded refused =>
      obtain ⟨same, exceeds⟩ := unchanged_of_refused refused
      obtain ⟨_, sameRounded, beyond⟩ := Arena.placement?_eq_none full
      rw [rounded, Except.ok.injEq] at sameRounded
      subst sameRounded
      rw [whole.eq_of_alignSize rounded] at beyond exceeds
      exact ⟨same, beyond, exceeds⟩

end PlacesInOld

theorem StaysYoung.refuses {target : Side} {failed : Bool}
    (young : heap.StaysYoung target record failed enlarged) (spans : heap.cards.Spans heap.old)
    (refuses : heap.Refuses size) : enlarged.Refuses size := by
  rcases young with ⟨_, _, rfl⟩ | ⟨_, _, placed⟩
  · exact refuses
  · exact (placesInOld_of_eq_ok placed).refuses spans refuses

/-- What was refused once is refused after every further survivor. -/
theorem Evacuates.refuses {target : Side} {fate : Fate} {failed : Bool}
    (step : heap.Evacuates target handle fate failed after) (spans : heap.cards.Spans heap.old)
    (refuses : heap.Refuses size) : after.Refuses size := by
  cases step with
  | stale _ => exact refuses
  | promoted _ _ placed => exact (placesInOld_of_eq_ok placed).refuses_moved spans refuses
  | copied _ young _ => exact refuses_moved (young.refuses spans refuses)
  | retained _ young _ => exact young.refuses spans refuses

theorem refuses_of_retained {target : Side} {failed : Bool} (spans : heap.cards.Spans heap.old)
    (inside : heap.old.used ≤ heap.old.capacity)
    (found : heap.directory.get? handle = some record) (whole : WholeGranules record.size)
    (ran : heap.evacuate target handle = .ok (.retained, failed, after)) :
    after.Refuses record.size := by
  obtain ⟨tried, _⟩ := overflows_of_retained spans found whole ran
  cases evacuate_eq_ok spans ran with
  | stale unknown => simp [found] at unknown
  | @retained same _ _ sameFound young _ =>
      rw [found, Option.some.injEq] at sameFound
      subst sameFound
      rcases young with ⟨_, untried, _⟩ | ⟨_, _, unplaced⟩
      · rw [tried] at untried
        cases untried
      · obtain ⟨rfl, refuses⟩ := (placesInOld_of_eq_ok unplaced).unplaced spans whole inside
        exact refuses

/-! ## All survivors -/

theorem refuses_of_evacuateAll {start : Heap WindowedMemory} {target : Side}
    {survivors : List Handle} {evacuation : Evacuation WindowedMemory}
    (movable : start.Movable target survivors)
    (ran : start.evacuateAll target survivors = .ok evacuation) :
    ∀ handle record, (handle, Fate.retained) ∈ evacuation.fates.toList →
      start.directory.get? handle = some record → evacuation.heap.Refuses record.size := by
  refine (evacuateAll_induction (fun _ current => ∀ handle record,
    (handle, Fate.retained) ∈ current.fates.toList →
      start.directory.get? handle = some record → current.heap.Refuses record.size)
    movable ran (by simp) ?_).2
  intro seen handle rest current fate failed after split holds refused unseen evacuated
    other record listed found
  rw [Array.toList_push, List.mem_append, List.mem_singleton, Prod.mk.injEq] at listed
  rcases listed with early | ⟨rfl, rfl⟩
  · exact (evacuate_eq_ok holds.cards evacuated).refuses holds.cards
      (refused other record early found)
  · exact refuses_of_retained holds.cards (holds.fills .old (.inl rfl)).wellFormed.used_le
      ((holds.waiting other unseen).trans found) (movable.whole other record found) evacuated

/-! ## Minor cycles -/

theorem MinorStages.Run.memory_after {stages : MinorStages WindowedMemory} {roots : List Handle}
    (run : stages.Run heap roots after) : after.memory = stages.evacuation.heap.memory := by
  obtain ⟨remembered, _, remember, rfl⟩ := run.remembered
  exact (sameSpaces_of_remember remember).1.memory.trans (sameSpaces_of_vacate run.vacate).1.memory

theorem MinorStages.Run.exhausted {stages : MinorStages WindowedMemory} {roots : List Handle}
    (run : stages.Run heap roots after) (consistent : heap.Consistent) : after.Exhausted := by
  intro handle record found inEden
  obtain ⟨retained, before, address, beforeFound, _, rfl⟩ :=
    run.origin_in_eden consistent found inEden
  have swept := (run.get?_swept consistent).mpr
    ⟨beforeFound, .inr (run.reached_of_fate consistent retained)⟩
  have refuses := refuses_of_evacuateAll (run.movable consistent) run.evacuated handle before
    retained swept
  exact refuses.of_same (run.old_after consistent) run.memory_after

theorem Consistent.exhausted_of_minorCycle (consistent : heap.Consistent) {marker next : Marker}
    {roots : List Handle} {answer : Answer MinorOutcome}
    (ran : heap.minorCycle marker roots = .ok (answer, after, next)) : after.Exhausted := by
  obtain ⟨_, stages, run⟩ := minorCycle_eq_ok ran
  exact run.exhausted consistent

theorem Exhausted.setThreshold (exhausted : heap.Exhausted) (threshold : Nat) :
    (heap.setThreshold threshold).2.Exhausted := by
  unfold Heap.setThreshold
  split
  · exact fun handle record found inEden => (exhausted handle record found inEden).of_same rfl rfl
  · exact exhausted

end Tenure.Heap
