import Tenure.Proofs.Heap.Accounting
import Tenure.Proofs.Heap.RootSets

/-!
# The numbers of a minor cycle

A minor outcome counts in many places: the young objects in the lists of residents, the
survivors in the trace and again by their fates, the dead in the sweep, the bytes below
the frontiers. The numbers agree, since the trace stays among the young residents and
each of them is either swept or has one fate.
-/

set_option autoImplicit false

namespace Tenure

variable {Source : Type}

/-- Each survivor is counted under its fate. -/
theorem Evacuation.count_fates (evacuation : Evacuation Source) :
    evacuation.count .copied + evacuation.count (.promoted false) +
        evacuation.count (.promoted true) + evacuation.count .retained =
      evacuation.fates.toList.length := by
  simp only [Evacuation.count, ← Array.countP_toList]
  induction evacuation.fates.toList with
  | nil => rfl
  | cons entry rest ih =>
      simp only [List.countP_cons, List.length_cons, ← ih]
      cases fate : entry.2 with
      | copied => simp; omega
      | promoted early => cases early <;> simp <;> omega
      | retained => simp; omega

namespace Heap

def youngResidents (heap : Heap Source) : Nat :=
  heap.eden.residents.size + heap.survivorA.residents.size + heap.survivorB.residents.size

/-- The bytes in use in all four spaces. -/
def usedBytes (heap : Heap Source) : Nat :=
  heap.eden.used + heap.survivorA.used + heap.survivorB.used + heap.old.used

/-- The numbers of a minor outcome fit together, and they fit the heap before and after. -/
structure AddsUp (heap : Heap Source) (outcome : MinorOutcome) (after : Heap Source) :
    Prop where
  residents : outcome.survival.youngBefore = heap.youngResidents
  youngs : outcome.survival.youngBefore = heap.directory.youngs.length
  parted : outcome.objectsReclaimed + outcome.survived + outcome.promoted +
    outcome.overflowPromoted + outcome.retained = outcome.survival.youngBefore
  survivors : outcome.survival.survived =
    outcome.survived + outcome.promoted + outcome.overflowPromoted + outcome.retained
  scanned : outcome.trace.scanned = outcome.survival.survived
  scanned_le : outcome.trace.scanned ≤ outcome.survival.youngBefore
  promoted : outcome.survival.promoted = outcome.promoted + outcome.overflowPromoted
  old : after.old.residents.size = heap.old.residents.size + outcome.survival.promoted
  objects : after.directory.live + outcome.objectsReclaimed = heap.directory.live
  bytes : after.usedBytes + outcome.bytesReclaimed = heap.usedBytes

variable {heap after : Heap Source} {roots : List Handle}

namespace MinorMarking.Run

variable {marking : MinorMarking}

/-- The space that receives the survivors holds nothing before. -/
theorem length_youngHandles (run : marking.Run heap roots) :
    heap.youngHandles.length = heap.youngResidents := by
  have unoccupied := run.unoccupied
  rw [Array.isEmpty_iff_size_eq_zero] at unoccupied
  unfold youngHandles youngResidents
  rw [List.length_append, Arena.length_handles, Arena.length_handles]
  cases side : heap.holding with
  | a =>
      rw [side] at unoccupied
      simp only [Side.other, survivor] at unoccupied ⊢
      omega
  | b =>
      rw [side] at unoccupied
      simp only [Side.other, survivor] at unoccupied ⊢
      omega

theorem length_youngs (run : marking.Run heap roots) (consistent : heap.Consistent) :
    heap.youngHandles.length = heap.directory.youngs.length := by
  have formed := consistent.directory
  apply List.Perm.length_eq
  refine (List.perm_ext_iff_of_nodup consistent.nodup_youngHandles formed.nodup_youngs).mpr ?_
  intro handle
  rw [run.mem_youngHandles consistent, formed.mem_youngs]

theorem length_survivors (run : marking.Run heap roots) (consistent : heap.Consistent) :
    (marking.survivors heap).length = marking.reached.size := by
  have distinct : (marking.survivors heap).Nodup := consistent.nodup_youngHandles.filter _
  have listed := HandleSet.perm_toList distinct fun _ => run.mem_survivors consistent
  rw [listed.length_eq, Std.TreeSet.length_toList]

theorem objects_eq (run : marking.Run heap roots) (consistent : heap.Consistent) :
    marking.tally.objects = (marking.dead heap).length := by
  apply consistent.directory.objects_sweep (consistent.nodup_youngHandles.filter _) _ run.sweep
  intro handle doomed
  exact Directory.isLive_of_isYoung ((run.mem_dead consistent).mp doomed).1

/-- A young object is swept or it survives. -/
theorem parted (run : marking.Run heap roots) (consistent : heap.Consistent) :
    marking.tally.objects + marking.reached.size = heap.youngHandles.length := by
  rw [run.objects_eq consistent, ← run.length_survivors consistent, Nat.add_comm]
  exact (List.length_eq_length_filter_add marking.reached.contains).symm

end MinorMarking.Run

variable [MemorySource Source] {stages : MinorStages Source}

/-- The old objects afterwards are the old ones before and the promoted ones. -/
theorem MinorStages.Run.perm_old (run : stages.Run heap roots after) (sound : heap.Sound) :
    after.old.handles.Perm (heap.old.handles ++ stages.evacuation.promoted) := by
  have consistent := sound.consistent
  have consistentAfter := run.consistent_after consistent
  have apart : (heap.old.handles ++ stages.evacuation.promoted).Nodup := by
    refine List.nodup_append.mpr
      ⟨(consistent.fills .old).distinct, run.nodup_promoted consistent, ?_⟩
    rintro handle before _ promoted rfl
    obtain ⟨early, listed⟩ := Evacuation.mem_promoted.mp promoted
    have young := run.young_of_reached (run.reached_of_fate consistent listed)
    rw [consistent.mem_old_handles] at before
    rw [Directory.isYoung, before] at young
    cases young
  have distinct : after.old.handles.Nodup := (consistentAfter.fills .old).distinct
  refine (List.perm_ext_iff_of_nodup distinct apart).mpr ?_
  intro handle
  rw [consistentAfter.mem_old_handles, List.mem_append, consistent.mem_old_handles]
  constructor
  · intro old
    obtain ⟨record, found, old⟩ := Directory.generation?_eq_some_iff.mp old
    exact run.old_before consistent found old
  · rintro (before | promoted)
    · obtain ⟨record, found, old⟩ := Directory.generation?_eq_some_iff.mp before
      exact Directory.generation?_eq_some_iff.mpr
        ⟨record, run.get?_after_old consistent found old, old⟩
    · exact run.old_of_mem_rescanned sound (List.mem_append_right _ promoted)

/-- Each survivor has one fate. -/
theorem MinorStages.Run.count_fates (run : stages.Run heap roots after)
    (consistent : heap.Consistent) :
    stages.evacuation.count .copied + stages.evacuation.count (.promoted false) +
        stages.evacuation.count (.promoted true) + stages.evacuation.count .retained =
      stages.reached.size := by
  rw [stages.evacuation.count_fates, ← run.length_survivors consistent,
    ← (run.evacuating consistent).handled, List.length_map]

/-- After any operations the numbers that a minor cycle reports add up. -/
theorem minorCycle_addsUp (attainable : heap.Attainable) {marker next : Marker}
    {answer : Answer MinorOutcome}
    (ran : heap.minorCycle marker roots = .ok (answer, after, next)) :
    ∃ outcome, answer = .ok outcome ∧ heap.AddsUp outcome after := by
  have sound := attainable.sound
  have consistent := sound.consistent
  have positive := toNat_pos_of_ne_zero attainable.stepBudget_ne_zero
  obtain ⟨outcome, rfl, stages, run, reports, measures⟩ := minorCycle_measures ran
  have consistentAfter := run.consistent_after consistent
  have parted := run.parted consistent
  have fated := run.count_fates consistent
  have reclaims := sound.reclaims_of_minorCycle ran
  have scanned : next.counts.scanned = stages.reached.size := by
    rw [(Marker.marks_of_traceInSteps positive measures.traced).counts_eq]
    rfl
  have old := (run.perm_old sound).length_eq
  rw [List.length_append, Evacuation.length_promoted, Arena.length_handles,
    Arena.length_handles, ← reports.promoted, ← reports.overflowPromoted] at old
  rw [← reports.survived, ← reports.promoted, ← reports.overflowPromoted,
    ← reports.retained, ← measures.reached] at fated
  rw [← reports.objectsReclaimed, ← measures.reached, ← measures.youngBefore] at parted
  refine ⟨outcome, rfl, ?_⟩
  exact
    { residents := measures.youngBefore.trans run.length_youngHandles
      youngs := measures.youngBefore.trans (run.length_youngs consistent)
      parted := by omega
      survivors := fated.symm
      scanned := by rw [measures.trace, scanned, measures.reached]
      scanned_le := by
        rw [measures.trace, scanned, ← measures.reached]
        omega
      promoted := measures.promoted
      old := by rw [old, measures.promoted]
      objects := reclaims.objects
      bytes := by
        rw [usedBytes, ← consistentAfter.bytes_eq, usedBytes, ← consistent.bytes_eq]
        exact reclaims.bytes }

/-- One object is copied, one is reclaimed. -/
theorem minorCycle_addsUp_without_roots :
    ∃ (heap after : Heap WindowedMemory) (next : Marker) (outcome : MinorOutcome),
      heap.Attainable ∧ heap.minorCycle .fresh [] = .ok (.ok outcome, after, next) ∧
        outcome.survived = 1 ∧ outcome.objectsReclaimed = 1 ∧ heap.AddsUp outcome after := by
  obtain ⟨heap, attainable, yields⟩ := attainable_of_leadsTo
    (show leadsTo smallSettings (WindowedMemory.fresh none) promotingOperations
      (fun heap => heap.minorYields [] fun outcome =>
        decide (outcome.survived = 1 ∧ outcome.objectsReclaimed = 1)) = true by decide +kernel)
  obtain ⟨outcome, after, next, ran, counted⟩ := ran_of_minorYields yields
  obtain ⟨survived, reclaimed⟩ := of_decide_eq_true counted
  obtain ⟨_, answered, sums⟩ := minorCycle_addsUp attainable ran
  cases answered
  exact ⟨heap, after, next, outcome, attainable, ran, survived, reclaimed, sums⟩

end Heap

end Tenure
