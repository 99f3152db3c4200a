import Tenure.Proofs.Collector.Ladder
import Tenure.Proofs.Heap.Exhaustion

/-!
# Failed allocations

When an allocation gives up, its minor cycle has left nothing in eden that the old space
could take. The major cycle after it may make room in the old space, and nothing moves there
any more. So the room that the failure tells of may be enough for what lies in eden; without
such a major cycle it is not.
-/

set_option autoImplicit false

namespace Tenure

namespace Heap

/-- A major cycle changes nothing about an object but its address. -/
theorem MajorExact.origin {heap after : Heap WindowedMemory} {roots : List Handle}
    {outcome : MajorOutcome} (exact : heap.MajorExact roots outcome after) {handle : Handle}
    {record : Record} (found : after.directory.get? handle = some record) :
    ∃ before address, heap.directory.get? handle = some before ∧
      record = { before with address } := by
  have live := Directory.isLive_iff.mpr ⟨record, found⟩
  obtain ⟨before, beforeFound⟩ := Directory.isLive_iff.mp ((exact.live_iff handle).mp live).1
  obtain ⟨address, same, _⟩ := exact.kept handle before beforeFound live
  rw [found, Option.some.injEq] at same
  exact ⟨before, address, beforeFound, same⟩

theorem Refuses.spare_lt {heap : Heap WindowedMemory} {size : Nat} (refuses : heap.Refuses size)
    (positive : 0 < size) : heap.old.spare < size := by
  have full := refuses.full
  rw [Arena.spare]
  omega

end Heap

namespace Collector

variable {Policy Hearer Roots : Type} [PromotionPolicy Policy] [Listener Hearer]
  [RootProvider Roots] {collector cleared swept after : Collector WindowedMemory Policy Hearer}
  {roots : Roots} {size fieldCount : Nat}

theorem Rests.exhausted_of_collectMinor {report : CycleReport} (rests : collector.Rests)
    (ran : collector.collectMinor roots = .ok (.ok report, after)) : after.heap.Exhausted := by
  rcases collectMinor_eq_ok ran with ⟨_, _, refused, _⟩ | ⟨_, _, _, _, _, _, _, cycle, tuned, _⟩
  · cases refused
  · rw [tuned]
    exact (rests.ready.sound.consistent.exhausted_of_minorCycle cycle).setThreshold _

omit [PromotionPolicy Policy] in
theorem Rests.origin_of_collectMajor {report : CycleReport} (rests : collector.Rests)
    (ran : collector.collectMajor roots = .ok (.ok report, after)) {handle : Handle}
    {record : Record} (found : after.heap.directory.get? handle = some record) :
    ∃ before address, collector.heap.directory.get? handle = some before ∧
      record = { before with address } := by
  rcases collectMajor_eq_ok ran with ⟨_, _, refused, _⟩ | ⟨_, _, _, _, _, cycle, _⟩
  · cases refused
  · obtain ⟨_, _, stages, run⟩ := Heap.majorCycle_eq_ok cycle
    exact (run.exact rests.ready.sound).origin found

/-- A failure tells the room that there is. What lies in eden then had no place in the old
space when the minor cycle ended, and it has none now unless the major cycle made room. -/
theorem exhausted_of_allocationFailure (reachable : collector.Reachable)
    {requested edenFree oldFree : Nat}
    (ran : collector.allocate roots size fieldCount =
      .ok (.error (.allocationFailure requested edenFree oldFree), after)) :
    requested = roundedSize size ∧ edenFree = after.heap.eden.spare ∧
      oldFree = after.heap.old.spare ∧ edenFree < requested ∧
      ∃ report cleared, collector.collectMinor roots = .ok (.ok report, cleared) ∧
        cleared.heap.Exhausted ∧
        ∀ handle record, after.heap.directory.get? handle = some record →
          record.space = .eden → cleared.heap.Refuses record.size ∧
            (oldFree ≤ cleared.heap.old.spare → oldFree < record.size) := by
  have rests := reachable.rests
  obtain ⟨kinds, climbs⟩ := climbs_of_allocate rests.healthy ran
  cases climbs with
  | @gaveUp report _ cleared swept _ _ _ minor _ major full gaveUp =>
      have clearedRests := (cycled_of_collectMinor rests minor).1.rests
      have sweptRests := (cycled_of_collectMajor clearedRests major).1.rests
      have exhausted := rests.exhausted_of_collectMinor minor
      have landed : Lands size fieldCount swept _ after :=
        lands_of_giveUp (crowded_of_tryAllocate sweptRests full) gaveUp
      cases landed with
      | failed crowded =>
          refine ⟨rfl, rfl, rfl, crowded, report, cleared, minor, exhausted,
            fun handle record found inEden => ?_⟩
          obtain ⟨before, address, beforeFound, rfl⟩ :=
            clearedRests.origin_of_collectMajor major found
          have refuses := exhausted handle before beforeFound inEden
          have whole := clearedRests.ready.sound.consistent.wholeGranules beforeFound
          exact ⟨refuses, fun unmade =>
            Nat.lt_of_le_of_lt unmade (refuses.spare_lt whole.1)⟩

/-! ## A crowded heap -/

/-- Eden holds two objects, each survivor space one, and the old space one; there is no
memory to grow. -/
def tightSettings : Settings :=
  { cardSize := 64
    edenSize := 128
    survivorRatio := 2
    oldSize := 64 }

/-- One object fills the old space, and two more fill eden. -/
def crowdingOperations : List (Operation (List Handle)) :=
  [.allocate [] 64 0, .collect .minor [Heap.firstHandle], .allocate [] 64 0, .allocate [] 64 0]

/-- Whether a request for all of eden fails so, and leaves an object of 64 bytes in eden. -/
def failsWith (failure : Failure) (roots : List Handle)
    (collector : Collector WindowedMemory FixedPromotion Unit) : Bool :=
  match collector.allocate roots 128 0 with
  | .ok (.error other, after) => other = failure && after.heap.eden.handles.any fun handle =>
      (after.heap.directory.get? handle).any fun record => record.space = .eden && record.size = 64
  | _ => false

theorem exists_of_failsWith {failure : Failure} {roots : List Handle}
    {collector : Collector WindowedMemory FixedPromotion Unit}
    (fails : collector.failsWith failure roots = true) : ∃ after handle record,
      collector.allocate roots 128 0 = .ok (.error failure, after) ∧
      after.heap.directory.get? handle = some record ∧ record.space = .eden ∧
      record.size = 64 := by
  unfold failsWith at fails
  split at fails
  · rename_i other after ran
    simp only [Bool.and_eq_true, decide_eq_true_eq, List.any_eq_true, Option.any_eq_true] at fails
    obtain ⟨rfl, handle, _, record, found, inEden, size⟩ := fails
    exact ⟨after, handle, record, ran, found, inEden, size⟩
  · cases fails

theorem exhausted_of_allocationFailure_when_crowded :
    ∃ collector after : Collector WindowedMemory FixedPromotion Unit,
      collector.Reachable ∧
      collector.allocate [Heap.firstHandle, Heap.secondHandle, Heap.thirdHandle] 128 0 =
        .ok (.error (.allocationFailure 128 64 0), after) ∧
      (∃ handle record, after.heap.directory.get? handle = some record ∧ record.space = .eden) ∧
      ∀ handle record, after.heap.directory.get? handle = some record →
        record.space = .eden → 0 < record.size := by
  obtain ⟨collector, reachable, fails⟩ := reachable_of_leadsTo
    (show leadsTo tightSettings (some 320) FixedPromotion.mk () crowdingOperations
      (failsWith (.allocationFailure 128 64 0)
        [Heap.firstHandle, Heap.secondHandle, Heap.thirdHandle]) = true by decide +kernel)
  obtain ⟨after, handle, record, ran, found, inEden, _⟩ := exists_of_failsWith fails
  obtain ⟨_, _, _, _, _, cleared, _, _, left⟩ := exhausted_of_allocationFailure reachable ran
  exact ⟨collector, after, reachable, ran, ⟨handle, record, found, inEden⟩,
    fun other kept otherFound otherInEden =>
      (left other kept otherFound otherInEden).2 (Nat.zero_le _)⟩

/-- Without the old object, the major cycle empties the old space; the object that lies in
eden would fit there, and the request for all of eden fails nevertheless. -/
theorem allocationFailure_with_room :
    ∃ (collector after : Collector WindowedMemory FixedPromotion Unit) (handle : Handle)
      (record : Record), collector.Reachable ∧ 128 ≤ collector.heap.eden.capacity ∧
      collector.allocate [Heap.secondHandle, Heap.thirdHandle] 128 0 =
        .ok (.error (.allocationFailure 128 64 64), after) ∧
      after.heap.directory.get? handle = some record ∧ record.space = .eden ∧
      record.size ≤ 64 := by
  obtain ⟨collector, reachable, facts⟩ := reachable_of_leadsTo
    (show leadsTo tightSettings (some 320) FixedPromotion.mk () crowdingOperations
      (fun collector => decide (128 ≤ collector.heap.eden.capacity) &&
        collector.failsWith (.allocationFailure 128 64 64)
          [Heap.secondHandle, Heap.thirdHandle]) = true by decide +kernel)
  rw [Bool.and_eq_true, decide_eq_true_eq] at facts
  obtain ⟨capacity, fails⟩ := facts
  obtain ⟨after, handle, record, ran, found, inEden, size⟩ := exists_of_failsWith fails
  exact ⟨collector, after, handle, record, reachable, capacity, ran, found, inEden,
    Nat.le_of_eq size⟩

end Collector

end Tenure
