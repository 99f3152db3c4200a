import Tenure.Proofs.Collector.Conservation
import Tenure.Proofs.Simulation.Steps

/-!
# Simulations lose nothing

Each step of a simulation allocates one object, and all that it does otherwise places none.
So a report accounts for as many objects as the workload has allocations, whatever was left
to chance.
-/

set_option autoImplicit false

namespace Tenure

namespace Simulation

variable {Random Policy : Type} [PromotionPolicy Policy] [RandomSource Random]
  {workload : Workload}

/-! ## Whole simulations -/

/-- A simulation begins without objects and places one for each allocation. -/
theorem accounted_of_runWith {settings : Settings} {policy : Policy} {random : Random}
    {report : Report} (ran : (runWith settings workload policy random).run = .ok (.ok report)) :
    Collector.Accounted (List.replicate workload.allocations.toNat workload.objectSize.toNat)
      report.totals report.usage := by
  unfold runWith at ran
  obtain ⟨first, started, ran⟩ := Checked.run_bind_eq_ok ran
  obtain ⟨middle, stepped, ran⟩ := Checked.run_bind_eq_ok ran
  obtain ⟨last, finished, ran⟩ := Checked.run_bind_eq_ok ran
  cases ran
  obtain ⟨heap, _, fresh, _, rfl⟩ := start_eq_ok started
  have attainable : heap.Attainable := ⟨settings, _, heap, [], fresh, rfl⟩
  have empty : heap.directory.live = 0 := by
    rw [(Heap.create_eq_ok fresh).2.1]
    rfl
  have steps := (steps_of_steps stepped).trans (steps_of_finish finished)
  rw [List.append_nil] at steps
  exact Collector.accounted_of_steps attainable empty steps

end Simulation

theorem Workload.accounted_of_runFrom {Random : Type} [RandomSource Random] {workload : Workload}
    {settings : Settings} {random : Random} {report : Report}
    (ran : (workload.runFrom settings random).run = .ok (.ok report)) :
    Collector.Accounted (List.replicate workload.allocations.toNat workload.objectSize.toNat)
      report.totals report.usage := by
  unfold runFrom at ran
  obtain ⟨_, _, ran⟩ := Checked.run_bind_eq_ok ran
  split at ran
  · exact Simulation.accounted_of_runWith ran
  · exact Simulation.accounted_of_runWith ran

/-! ## Conservation -/

/-- A collector over an empty heap accounts for all objects that it placed, after any
operations. So a simulation that ends with a report accounts for all its allocations, with
any source of random choices. -/
theorem objects_conserved {Source Policy Hearer Roots Random : Type} [MemorySource Source]
    [PromotionPolicy Policy] [Listener Hearer] [RootProvider Roots] [RandomSource Random] :
    (∀ (heap : Heap Source) (policy : Policy) (hearer : Hearer)
        (operations : List (Collector.Operation Roots)) (sizes : List Nat)
        (after : Collector Source Policy Hearer),
      heap.Attainable → heap.directory.live = 0 →
      (Collector.ofHeap heap policy hearer).performAllSized operations = .ok (sizes, after) →
      Collector.Accounted sizes after.currentTotals after.heap.usage) ∧
    ∀ (workload : Workload) (settings : Settings) (random : Random) (report : Report),
      (workload.runFrom settings random).run = .ok (.ok report) →
      workload.allocations.toNat =
        report.usage.liveObjects + report.totals.objectsReclaimed ∧
      workload.allocations.toNat * roundedSize workload.objectSize.toNat =
        report.usage.edenUsed + report.usage.survivorUsed + report.usage.oldUsed +
          report.totals.bytesReclaimed ∧
      (workload.allocations ≠ 0 →
        alignSize workload.objectSize.toNat = .ok (roundedSize workload.objectSize.toNat)) := by
  refine ⟨fun heap policy hearer operations sizes after attainable empty ran => ?_,
    fun workload settings random report ran => ?_⟩
  · exact Collector.accounted_of_steps attainable empty (Collector.steps_of_performAllSized ran)
  · have accounted := Workload.accounted_of_runFrom ran
    have objects := accounted.objects
    have bytes := accounted.bytes
    rw [List.length_replicate] at objects
    rw [List.map_replicate, List.sum_replicate_nat] at bytes
    refine ⟨objects, bytes, fun some => accounted.aligned _ (List.mem_replicate.mpr ⟨?_, rfl⟩)⟩
    exact fun none => some (UInt64.toNat_inj.mp none)

/-- Two objects are placed, a minor cycle keeps one of them, a request is served, and one
allocation is too large for eden. -/
def reclaimingOperations : List (Collector.Operation (List Handle)) :=
  [.allocate [] 20 1, .allocate [Heap.firstHandle] 8 0, .collect .minor [Heap.firstHandle],
    .request .major, .runPending [], .allocate [] 300 0, .allocate [] 5 0]

def smallWorkload : Workload :=
  { allocations := 5
    objectSize := 20
    fields := 1
    survival := 1.0
    maxRoots := 1
    linkProbability := 1.0 }

theorem objects_conserved_when_reclaimed :
    (∃ (heap : Heap WindowedMemory) (after : Collector WindowedMemory FixedPromotion Unit),
      heap.Attainable ∧ heap.directory.live = 0 ∧
        (Collector.ofHeap heap FixedPromotion.mk ()).performAllSized reclaimingOperations =
          .ok ([20, 8, 5], after) ∧
        after.currentTotals.objectsReclaimed = 2 ∧
        Collector.Accounted [20, 8, 5] after.currentTotals after.heap.usage) ∧
    ∃ report, (smallWorkload.runFrom Heap.smallSettings
        (SeededRandom.ofSeed smallWorkload.seed)).run = .ok (.ok report) ∧
      5 = report.usage.liveObjects + report.totals.objectsReclaimed ∧
      5 * 24 = report.usage.edenUsed + report.usage.survivorUsed + report.usage.oldUsed +
        report.totals.bytesReclaimed := by
  refine ⟨?_, ?_⟩
  · obtain ⟨heap, attainable, facts⟩ := Heap.attainable_of_leadsTo
      (show Heap.leadsTo Heap.smallSettings (WindowedMemory.fresh none) [] (fun heap =>
        heap.directory.live = 0 &&
          ((Collector.ofHeap heap FixedPromotion.mk ()).performAllSized
            reclaimingOperations).toOption.any fun run =>
              run.1 = [20, 8, 5] && decide (run.2.currentTotals.objectsReclaimed = 2)) = true
        by decide +kernel)
    rw [Bool.and_eq_true, decide_eq_true_eq] at facts
    obtain ⟨empty, runs⟩ := facts
    obtain ⟨⟨sizes, after⟩, ran, facts⟩ := Checked.eq_ok_of_any runs
    rw [Bool.and_eq_true, decide_eq_true_eq, decide_eq_true_eq] at facts
    obtain ⟨rfl, reclaimed⟩ := facts
    obtain ⟨conserved, _⟩ :=
      @objects_conserved WindowedMemory FixedPromotion Unit (List Handle) SeededRandom _ _ _ _ _
    exact ⟨heap, after, attainable, empty, ran, reclaimed,
      conserved heap FixedPromotion.mk () reclaimingOperations _ after attainable empty ran⟩
  · obtain ⟨answer, ran, reported⟩ := Checked.eq_ok_of_any
      (show (smallWorkload.runFrom Heap.smallSettings
          (SeededRandom.ofSeed smallWorkload.seed)).run.toOption.any (fun answer =>
        answer.isOk) = true by decide +kernel)
    cases answer with
    | error failure => cases reported
    | ok report =>
        obtain ⟨_, conserved⟩ :=
          @objects_conserved WindowedMemory FixedPromotion Unit (List Handle) SeededRandom _ _ _ _ _
        obtain ⟨objects, bytes, _⟩ := conserved smallWorkload Heap.smallSettings _ report ran
        exact ⟨report, ran, objects, bytes⟩

end Tenure
