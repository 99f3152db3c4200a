import Tenure.Arena.Overlap
import Tenure.Proofs.Arena.Layout

/-!
# Bisection finds the residents of a range

In a packed arena both the starts and the ends of the residents ascend. So the
residents that end after a given offset are a final part, those that start before
another one an initial part, and bisection agrees with looking at every resident.
-/

set_option autoImplicit false

namespace Tenure.Arena

private theorem drop_eq_filter {Item : Type} (keep : Item → Bool) {items : List Item}
    {first : Nat} (before : ∀ index, index < first → (found : index < items.length) →
      keep items[index] = false)
    (after : ∀ index, first ≤ index → (found : index < items.length) →
      keep items[index] = true) :
    items.drop first = items.filter keep := by
  induction items generalizing first with
  | nil => simp
  | cons item rest ih =>
      cases first with
      | zero =>
          rw [List.drop_zero, eq_comm, List.filter_eq_self]
          intro other member
          obtain ⟨index, found, rfl⟩ := List.getElem_of_mem member
          exact after index (Nat.zero_le index) found
      | succ first =>
          have dropped := before 0 (Nat.zero_lt_succ first) (by simp)
          have dropped : ¬ keep item = true := by simpa using dropped
          rw [List.drop_succ_cons, List.filter_cons_of_neg dropped]
          refine ih (fun index small found => ?_) (fun index large found => ?_)
          · exact before (index + 1) (by omega) (by simpa using found)
          · exact after (index + 1) (by omega) (by simpa using found)

private theorem takeWhile_eq_filter {Item : Type} {keep : Item → Bool} {items : List Item}
    (closed : items.Pairwise fun earlier later => keep later = true → keep earlier = true) :
    items.takeWhile keep = items.filter keep := by
  induction items with
  | nil => rfl
  | cons item rest ih =>
      obtain ⟨earlier, closed⟩ := List.pairwise_cons.mp closed
      by_cases kept : keep item = true
      · rw [List.takeWhile_cons_of_pos kept, List.filter_cons_of_pos kept, ih closed]
      · rw [List.takeWhile_cons_of_neg kept, List.filter_cons_of_neg kept, eq_comm,
          List.filter_eq_nil_iff]
        intro other member present
        exact kept (earlier other member present)

/-- Bisection splits the residents into those that end at or before an offset and
those that end after it. -/
private theorem firstEndingAfter_spec {residents : Array Resident} (start : Nat)
    (ascending : residents.toList.Pairwise fun earlier later => earlier.finish ≤ later.finish)
    {low high : Nat} (ordered : low ≤ high) (bounded : high ≤ residents.size)
    (below : ∀ index, index < low → (found : index < residents.size) →
      residents[index].finish ≤ start)
    (above : ∀ index, high ≤ index → (found : index < residents.size) →
      start < residents[index].finish) :
    (∀ index, index < firstEndingAfter residents start low high →
      (found : index < residents.size) → residents[index].finish ≤ start) ∧
    (∀ index, firstEndingAfter residents start low high ≤ index →
      (found : index < residents.size) → start < residents[index].finish) := by
  have ascends : ∀ earlier later, earlier ≤ later → (first : earlier < residents.size) →
      (second : later < residents.size) →
      residents[earlier].finish ≤ residents[later].finish := by
    intro earlier later small first second
    rcases Nat.lt_or_eq_of_le small with small | rfl
    · exact List.pairwise_iff_getElem.mp ascending earlier later first second small
    · exact Nat.le_refl _
  fun_induction firstEndingAfter residents start low high with
  | case1 low high narrow middle resident found ends ih =>
      obtain ⟨inside, rfl⟩ := Array.getElem?_eq_some_iff.mp found
      refine ih (by omega) bounded (fun index small present => ?_) above
      exact Nat.le_trans (ascends index middle (by omega) present inside) ends
  | case2 low high narrow middle resident found ends ih =>
      obtain ⟨inside, rfl⟩ := Array.getElem?_eq_some_iff.mp found
      refine ih (by omega) (by omega) below (fun index large present => ?_)
      exact Nat.lt_of_lt_of_le (Nat.lt_of_not_le ends)
        (ascends middle index large inside present)
  | case3 low high narrow middle missing ih =>
      rw [Array.getElem?_eq_none_iff] at missing
      omega
  | case4 low high narrow =>
      exact ⟨below, fun index large present => above index (by omega) present⟩

private theorem startingBefore_eq (residents : Array Resident) (stop index : Nat) :
    startingBefore residents stop index =
      ((residents.toList.drop index).takeWhile fun resident => resident.offset < stop).map
        Resident.handle := by
  fun_induction startingBefore residents stop index with
  | case1 index inside starts ih =>
      have split := List.drop_eq_getElem_cons (l := residents.toList) (i := index)
        (by simpa using inside)
      rw [ih, split, List.takeWhile_cons_of_pos (by simpa using starts)]
      simp
  | case2 index inside starts =>
      have split := List.drop_eq_getElem_cons (l := residents.toList) (i := index)
        (by simpa using inside)
      rw [split, List.takeWhile_cons_of_neg (by simpa using starts)]
      rfl
  | case3 index outside =>
      rw [List.drop_eq_nil_of_le (by simpa using outside)]
      rfl

/-- Bisection answers what looking at every resident answers. -/
theorem WellFormed.overlapping_eq {arena : Arena} (wellFormed : arena.WellFormed)
    (start stop : Nat) : arena.overlapping start stop = arena.overlappingByScan start stop := by
  have separate := wellFormed.packed.pairwise
  have ascending : arena.residents.toList.Pairwise
      fun earlier later => earlier.finish ≤ later.finish :=
    separate.imp fun apart => Nat.le_trans apart (Nat.le_add_right _ _)
  obtain ⟨below, above⟩ := firstEndingAfter_spec (start - arena.base) ascending
    (Nat.zero_le _) (Nat.le_refl _) (fun index small _ => absurd small (Nat.not_lt_zero index))
    (fun index large found => absurd found (Nat.not_lt.mpr large))
  unfold overlapping overlappingByScan
  rw [startingBefore_eq]
  rw [drop_eq_filter (fun resident => decide (start - arena.base < resident.finish))
    (fun index small found => by simpa using below index small (by simpa using found))
    (fun index large found => by simpa using above index large (by simpa using found))]
  rw [takeWhile_eq_filter]
  · rw [List.filter_filter]
    refine congrArg _ (List.filter_congr fun resident member => ?_)
    have positive := (wellFormed.whole resident member).1
    rw [Bool.eq_iff_iff]
    simp only [Bool.and_eq_true, decide_eq_true_eq]
    unfold Resident.finish
    omega
  · refine (separate.sublist List.filter_sublist).imp fun apart starts => ?_
    simp only [decide_eq_true_eq, Resident.finish] at apart starts ⊢
    omega

/-- Exactly the residents whose storage meets a range overlap it. -/
theorem WellFormed.mem_overlapping {arena : Arena} (wellFormed : arena.WellFormed)
    {start stop : Nat} {handle : Handle} :
    handle ∈ arena.overlapping start stop ↔ ∃ resident ∈ arena.residents.toList,
      resident.handle = handle ∧ arena.base + resident.offset < stop ∧
        start < arena.base + resident.finish := by
  rw [wellFormed.overlapping_eq, overlappingByScan, List.mem_map]
  constructor
  · intro named
    obtain ⟨resident, member, rfl⟩ := named
    obtain ⟨member, meets⟩ := List.mem_filter.mp member
    simp only [Bool.and_eq_true, decide_eq_true_eq] at meets
    exact ⟨resident, member, rfl, meets⟩
  · intro overlaps
    obtain ⟨resident, member, rfl, meets⟩ := overlaps
    refine ⟨resident, List.mem_filter.mpr ⟨member, ?_⟩, rfl⟩
    simpa only [Bool.and_eq_true, decide_eq_true_eq] using meets

end Tenure.Arena
