import Tenure.Proofs.Collector.Tallies

/-!
# Allocations of every size

Whatever size is asked for, an allocation that returns has placed an object that is large
enough or tells that there is no room. It returns for every size that can be rounded up to
whole granules with one more granule to spare. The sizes above that have no answer, and
neither has a field vector that is too long to exist, unless there is no room anyway.
-/

set_option autoImplicit false

namespace Tenure.Collector

open Checked (StopsOnlyIf)

variable {Policy Hearer Roots : Type} [PromotionPolicy Policy] [Listener Hearer]
  [RootProvider Roots] {collector last after : Collector WindowedMemory Policy Hearer}
  {roots : Roots} {size fieldCount : Nat} {answer : Answer Handle}

/-- An object that is large enough was placed with null fields, or there was no room for it. -/
inductive Adequate (size fieldCount : Nat) (after : Collector WindowedMemory Policy Hearer) :
    Answer Handle → Prop where
  | placed {handle : Handle} {record : Record}
      (found : after.heap.directory.get? handle = some record) (enough : size ≤ record.size)
      (null : record.fields = List.replicate fieldCount none) :
      Adequate size fieldCount after (.ok handle)
  | crowded (full : after.heap.eden.spare < roundedSize size) : Adequate size fieldCount after
      (.error (.allocationFailure (roundedSize size) after.heap.eden.spare
        after.heap.old.spare))

/-- How the allocations of a size end. -/
structure EndsBySize (roots : Roots) (size fieldCount : Nat)
    (collector : Collector WindowedMemory Policy Hearer) : Prop where
  adequate : ∀ answer after, collector.allocate roots size fieldCount = .ok (answer, after) →
    Adequate size fieldCount after answer
  returns : size + granule < Word.limit → collector.HasRoomFor [.minor, .major] →
    StopsOnlyIf (Heap.Unstorable fieldCount) .tableTooLarge
      (collector.allocate roots size fieldCount)
  overflows : Word.limit ≤ size + granule →
    collector.allocate roots size fieldCount = .error .addOverflow

omit [PromotionPolicy Policy] [Listener Hearer] in
theorem Lands.adequate (lands : Lands size fieldCount last answer after) :
    Adequate size fieldCount after answer := by
  cases lands with
  | placed fits fresh =>
      have enough : size ≤ roundedSize size :=
        Nat.le_trans (Nat.le_max_left size 1) (isLeast_roundedSize size).1.2
      have found := (Heap.get?_withNew fresh (roundedSize size) fieldCount _).trans (if_pos rfl)
      exact .placed found enough rfl
  | failed full => exact .crowded full

/-- The attempt before any cycle overflows. -/
theorem allocate_of_limit_le (healthy : collector.poison = none)
    (large : Word.limit ≤ size + granule) (roots : Roots) (fieldCount : Nat) :
    collector.allocate roots size fieldCount = .error .addOverflow := by
  simp only [allocate, checkPoison_eq_ok_iff.mpr healthy, tryAllocate,
    collector.heap.tryAllocate_of_limit_le large]
  rfl

/-- Whatever a program did before, its size decides how an allocation ends. -/
theorem allocate_ends_by_size (reachable : collector.Reachable) (roots : Roots)
    (size fieldCount : Nat) : collector.EndsBySize roots size fieldCount := by
  have rests := reachable.rests
  constructor
  · intro answer after ran
    obtain ⟨kinds, climbs⟩ := climbs_of_allocate rests.healthy ran
    obtain ⟨last, _, lands⟩ := climbs.ladder rests
    exact lands.adequate
  · intro small room
    exact rests.stopsOnlyIf_allocate small room roots fieldCount
  · intro large
    exact allocate_of_limit_le rests.healthy large roots fieldCount

theorem exists_new : ∃ collector : Collector WindowedMemory FixedPromotion Unit,
    collector.Reachable ∧ collector.HasRoomFor [.minor, .major] := by
  obtain ⟨answer, created, accepted⟩ := Checked.eq_ok_of_any
    (show (Heap.create Heap.smallSettings (WindowedMemory.fresh none)).run.toOption.any
      (fun answer => answer.isOk) = true by decide +kernel)
  cases answer with
  | error failure => cases accepted
  | ok heap =>
      exact ⟨ofHeap heap FixedPromotion.mk (), .began created FixedPromotion.mk (),
        hasRoomFor_ofHeap created FixedPromotion.mk () silent_unit⟩

/-- The greatest size that can be rounded up ends with an answer. -/
theorem allocate_ends_below_limit :
    ∃ (collector after : Collector WindowedMemory FixedPromotion Unit) (answer : Answer Handle),
      collector.Reachable ∧ collector.HasRoomFor [.minor, .major] ∧
        collector.EndsBySize ([] : List Handle) (Word.limit - granule - 1) 0 ∧
        collector.allocate ([] : List Handle) (Word.limit - granule - 1) 0 =
          .ok (answer, after) := by
  obtain ⟨collector, reachable, room⟩ := exists_new
  have ends := allocate_ends_by_size reachable ([] : List Handle) (Word.limit - granule - 1) 0
  obtain ⟨⟨answer, after⟩, ran⟩ := (ends.returns (by decide) room).answers (by
    unfold Heap.Unstorable
    decide)
  exact ⟨collector, after, answer, reachable, room, ends, ran⟩

/-- The greatest size of whole granules is a word, and no answer comes to it. -/
theorem allocate_at_limit_stops :
    ∃ collector : Collector WindowedMemory FixedPromotion Unit, collector.Reachable ∧
      Word.limit - granule ≤ Word.greatest ∧
        collector.allocate ([] : List Handle) (Word.limit - granule) 0 = .error .addOverflow := by
  obtain ⟨collector, reachable, _⟩ := exists_new
  have large : Word.limit ≤ Word.limit - granule + granule := by decide
  exact ⟨collector, reachable, by decide,
    allocate_of_limit_le reachable.rests.healthy large [] 0⟩

end Tenure.Collector
