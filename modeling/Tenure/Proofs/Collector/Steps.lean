import Tenure.Proofs.Collector.Cycles
import Tenure.Proofs.Collector.Recording
import Tenure.Proofs.Heap.Attainable

/-!
# Steps of a collector

Every operation of a collector is a sequence of steps: requests come and go, an object is
placed, a field is stored, a cycle runs, an allocation is given up. An invariant of
collectors is proved for the steps, and holds for every run then.
-/

set_option autoImplicit false

namespace Tenure.Collector

variable {Source Policy Hearer : Type} {collector middle after : Collector Source Policy Hearer}

/-! ## Allocations -/

/-- An attempt places an object, or finds no room and changes nothing. -/
theorem tryAllocate_eq_ok {size fieldCount : Nat} {placed : Option Handle}
    (ran : collector.tryAllocate size fieldCount = .ok (placed, after)) :
    (placed = none ∧ after = collector ∧
      collector.heap.tryAllocate size fieldCount = .ok (none, collector.heap)) ∨
    ∃ handle heap, placed = some handle ∧ after = { collector with heap } ∧
      collector.heap.tryAllocate size fieldCount = .ok (some handle, heap) := by
  unfold tryAllocate at ran
  simp only [Checked.bind_eq_ok_iff, Checked.pure_eq_ok_iff, Prod.mk.injEq] at ran
  obtain ⟨⟨found, heap⟩, attempt, rfl, rfl⟩ := ran
  cases found with
  | some handle => exact .inr ⟨handle, heap, rfl, rfl, attempt⟩
  | none =>
      rcases Heap.tryAllocate_eq_ok attempt with ⟨_, rfl⟩ | ⟨_, _, placed, _⟩
      · exact .inl ⟨rfl, rfl, attempt⟩
      · cases placed

section Cycles

variable [MemorySource Source] [Listener Hearer] {Roots : Type} [RootProvider Roots]
  {roots : Roots}

/-- A collector without poison ends its cycles with a report and without poison. -/
theorem reports_of_collectMajor {answer : Answer CycleReport} (healthy : collector.poison = none)
    (ran : collector.collectMajor roots = .ok (answer, after)) :
    ∃ report, answer = .ok report ∧ after.poison = none := by
  rcases collectMajor_eq_ok ran with ⟨_, poisoned, _⟩ | ⟨_, report, _, _, reported, _, counts⟩
  · rw [checkPoison_eq_ok_iff.mpr healthy] at poisoned
    cases poisoned
  · exact ⟨report, reported, counts.poison.trans healthy⟩

theorem allocateAfterMajor_eq_ok {size fieldCount : Nat} {answer : Answer Handle}
    (healthy : collector.poison = none)
    (ran : collector.allocateAfterMajor roots size fieldCount = .ok (answer, after)) :
    ∃ report swept, collector.collectMajor roots = .ok (.ok report, swept) ∧
      ((∃ handle heap, swept.heap.tryAllocate size fieldCount = .ok (some handle, heap) ∧
          answer = .ok handle ∧ after = { swept with heap }) ∨
        ∃ failure, swept.heap.tryAllocate size fieldCount = .ok (none, swept.heap) ∧
          swept.giveUp size = .ok (failure, after) ∧ answer = .error failure) := by
  unfold allocateAfterMajor at ran
  obtain ⟨⟨answered, swept⟩, major, rest⟩ := Checked.bind_eq_ok_iff.mp ran
  obtain ⟨report, rfl, _⟩ := reports_of_collectMajor healthy major
  refine ⟨report, swept, major, ?_⟩
  obtain ⟨⟨placed, tried⟩, attempt, last⟩ := Checked.bind_eq_ok_iff.mp rest
  rcases tryAllocate_eq_ok attempt with ⟨rfl, rfl, full⟩ | ⟨handle, heap, rfl, rfl, fits⟩
  · simp only [Checked.bind_eq_ok_iff, Checked.pure_eq_ok_iff, Prod.mk.injEq] at last
    obtain ⟨⟨failure, _⟩, gaveUp, rfl, rfl⟩ := last
    exact .inr ⟨failure, full, gaveUp, rfl⟩
  · simp only [Checked.pure_eq_ok_iff, Prod.mk.injEq] at last
    obtain ⟨rfl, rfl⟩ := last
    exact .inl ⟨handle, heap, fits, rfl, rfl⟩

variable [PromotionPolicy Policy]

theorem reports_of_collectMinor {answer : Answer CycleReport} (healthy : collector.poison = none)
    (ran : collector.collectMinor roots = .ok (answer, after)) :
    ∃ report, answer = .ok report ∧ after.poison = none := by
  rcases collectMinor_eq_ok ran with
    ⟨_, poisoned, _⟩ | ⟨_, report, _, _, _, _, reported, _, _, counts⟩
  · rw [checkPoison_eq_ok_iff.mpr healthy] at poisoned
    cases poisoned
  · exact ⟨report, reported, counts.poison.trans healthy⟩

theorem allocateAfterMinor_eq_ok {size fieldCount : Nat} {answer : Answer Handle}
    (healthy : collector.poison = none)
    (ran : collector.allocateAfterMinor roots size fieldCount = .ok (answer, after)) :
    ∃ report cleared, collector.collectMinor roots = .ok (.ok report, cleared) ∧
      ((∃ handle heap, cleared.heap.tryAllocate size fieldCount = .ok (some handle, heap) ∧
          answer = .ok handle ∧ after = { cleared with heap }) ∨
        (cleared.poison = none ∧
          cleared.heap.tryAllocate size fieldCount = .ok (none, cleared.heap) ∧
          cleared.allocateAfterMajor roots size fieldCount = .ok (answer, after))) := by
  unfold allocateAfterMinor at ran
  obtain ⟨⟨answered, cleared⟩, minor, rest⟩ := Checked.bind_eq_ok_iff.mp ran
  obtain ⟨report, rfl, still⟩ := reports_of_collectMinor healthy minor
  refine ⟨report, cleared, minor, ?_⟩
  obtain ⟨⟨placed, tried⟩, attempt, last⟩ := Checked.bind_eq_ok_iff.mp rest
  rcases tryAllocate_eq_ok attempt with ⟨rfl, rfl, crowded⟩ | ⟨handle, heap, rfl, rfl, fits⟩
  · exact .inr ⟨still, crowded, last⟩
  · simp only [Checked.pure_eq_ok_iff, Prod.mk.injEq] at last
    obtain ⟨rfl, rfl⟩ := last
    exact .inl ⟨handle, heap, fits, rfl, rfl⟩

/-- The ways of an allocation that is not refused at once, with the cycles that it runs. -/
inductive Climbs (roots : Roots) (size fieldCount : Nat)
    (collector : Collector Source Policy Hearer) :
    List CycleKind → Answer Handle → Collector Source Policy Hearer → Prop where
  | atOnce {handle : Handle} {heap : Heap Source}
      (placed : collector.heap.tryAllocate size fieldCount = .ok (some handle, heap)) :
      Climbs roots size fieldCount collector [] (.ok handle) { collector with heap }
  | afterMinor {report : CycleReport} {cleared : Collector Source Policy Hearer}
      {handle : Handle} {heap : Heap Source}
      (crowded : collector.heap.tryAllocate size fieldCount = .ok (none, collector.heap))
      (minor : collector.collectMinor roots = .ok (.ok report, cleared))
      (placed : cleared.heap.tryAllocate size fieldCount = .ok (some handle, heap)) :
      Climbs roots size fieldCount collector [.minor] (.ok handle) { cleared with heap }
  | afterMajor {report last : CycleReport} {cleared swept : Collector Source Policy Hearer}
      {handle : Handle} {heap : Heap Source}
      (crowded : collector.heap.tryAllocate size fieldCount = .ok (none, collector.heap))
      (minor : collector.collectMinor roots = .ok (.ok report, cleared))
      (still : cleared.heap.tryAllocate size fieldCount = .ok (none, cleared.heap))
      (major : cleared.collectMajor roots = .ok (.ok last, swept))
      (placed : swept.heap.tryAllocate size fieldCount = .ok (some handle, heap)) :
      Climbs roots size fieldCount collector [.minor, .major] (.ok handle) { swept with heap }
  | gaveUp {report last : CycleReport} {cleared swept after : Collector Source Policy Hearer}
      {failure : Failure}
      (crowded : collector.heap.tryAllocate size fieldCount = .ok (none, collector.heap))
      (minor : collector.collectMinor roots = .ok (.ok report, cleared))
      (still : cleared.heap.tryAllocate size fieldCount = .ok (none, cleared.heap))
      (major : cleared.collectMajor roots = .ok (.ok last, swept))
      (full : swept.heap.tryAllocate size fieldCount = .ok (none, swept.heap))
      (gaveUp : swept.giveUp size = .ok (failure, after)) :
      Climbs roots size fieldCount collector [.minor, .major] (.error failure) after

theorem climbs_of_allocate {size fieldCount : Nat} {answer : Answer Handle}
    (healthy : collector.poison = none)
    (ran : collector.allocate roots size fieldCount = .ok (answer, after)) :
    ∃ kinds, collector.Climbs roots size fieldCount kinds answer after := by
  simp only [allocate, checkPoison_eq_ok_iff.mpr healthy] at ran
  obtain ⟨⟨placed, tried⟩, attempt, rest⟩ := Checked.bind_eq_ok_iff.mp ran
  rcases tryAllocate_eq_ok attempt with ⟨rfl, rfl, crowded⟩ | ⟨handle, heap, rfl, rfl, fits⟩
  · obtain ⟨_, cleared, minor, retry⟩ := allocateAfterMinor_eq_ok healthy rest
    rcases retry with ⟨_, _, fits, rfl, rfl⟩ | ⟨clearedHealthy, still, again⟩
    · exact ⟨[.minor], .afterMinor crowded minor fits⟩
    · obtain ⟨_, swept, major, retry⟩ := allocateAfterMajor_eq_ok clearedHealthy again
      rcases retry with ⟨_, _, fits, rfl, rfl⟩ | ⟨_, full, gaveUp, rfl⟩
      · exact ⟨[.minor, .major], .afterMajor crowded minor still major fits⟩
      · exact ⟨[.minor, .major], .gaveUp crowded minor still major full gaveUp⟩
  · simp only [Checked.pure_eq_ok_iff, Prod.mk.injEq] at rest
    obtain ⟨rfl, rfl⟩ := rest
    exact ⟨[], .atOnce fits⟩

end Cycles

/-! ## Steps -/

section Steps

variable [MemorySource Source]

/-- A step, with the size that was asked for where it places an object. -/
inductive Step (collector : Collector Source Policy Hearer) :
    Option Nat → Collector Source Policy Hearer → Prop where
  | queued (requests : Requests) : Step collector none { collector with requests }
  | placed {size fieldCount : Nat} {handle : Handle} {heap : Heap Source}
      (ran : collector.heap.tryAllocate size fieldCount = .ok (some handle, heap)) :
      Step collector (some size) { collector with heap }
  | stored {holder : Handle} {index : Nat} {value : Option Handle} {answer : Answer Unit}
      {heap : Heap Source}
      (ran : collector.heap.store holder index value = .ok (answer, heap)) :
      Step collector none { collector with heap }
  | minor {roots : List Handle} {outcome : MinorOutcome} {heap : Heap Source} {next : Marker}
      {threshold : Nat} {after : Collector Source Policy Hearer}
      (ran : collector.heap.minorCycle collector.marker roots = .ok (.ok outcome, heap, next))
      (tuned : after.heap = (heap.setThreshold threshold).2)
      (counts : collector.Ran .minor outcome.objectsReclaimed outcome.bytesReclaimed
        outcome.promotionFailed after) :
      Step collector none after
  | major {roots : List Handle} {outcome : MajorOutcome} {next : Marker}
      {after : Collector Source Policy Hearer}
      (ran : collector.heap.majorCycle collector.marker roots =
        .ok (.ok outcome, after.heap, next))
      (counts : collector.Ran .major outcome.objectsReclaimed outcome.bytesReclaimed false after) :
      Step collector none after
  | gaveUp (allocationFailures : Nat) :
      Step collector none
        { collector with totals := { collector.totals with allocationFailures } }

/-- Steps one after another, with the sizes of the objects that they place. -/
inductive Steps : Collector Source Policy Hearer → List Nat →
    Collector Source Policy Hearer → Prop where
  | refl (collector : Collector Source Policy Hearer) : Steps collector [] collector
  | cons {collector middle after : Collector Source Policy Hearer} {placed : Option Nat}
      {sizes : List Nat} (step : Step collector placed middle) (rest : Steps middle sizes after) :
      Steps collector (placed.toList ++ sizes) after

namespace Steps

variable {sizes later : List Nat}

theorem one {placed : Option Nat} (step : Step collector placed after) :
    Steps collector placed.toList after := by
  have steps := Steps.cons step (.refl after)
  rwa [List.append_nil] at steps

theorem trans (first : Steps collector sizes middle) (second : Steps middle later after) :
    Steps collector (sizes ++ later) after := by
  induction first with
  | refl _ => exact second
  | cons step _ ih =>
      rw [List.append_assoc]
      exact .cons step (ih second)

/-- What every step keeps holds at the end of every run. -/
theorem invariant (holds : Collector Source Policy Hearer → Prop)
    (kept : ∀ {current next placed}, Step current placed next → holds current → holds next)
    (steps : Steps collector sizes after) (initially : holds collector) : holds after := by
  induction steps with
  | refl _ => exact initially
  | cons step _ ih => exact ih (kept step initially)

end Steps

/-! ## Operations -/

theorem steps_of_store {holder : Handle} {index : Nat} {value : Option Handle}
    {answer : Answer Unit} (ran : collector.store holder index value = .ok (answer, after)) :
    Steps collector [] after := by
  simp only [store, Checked.bind_eq_ok_iff, Checked.pure_eq_ok_iff, Prod.mk.injEq] at ran
  obtain ⟨⟨_, _⟩, stored, _, rfl⟩ := ran
  exact .one (.stored stored)

theorem steps_of_request {kind : CycleKind} {waits : Bool}
    (ran : collector.request kind = .ok (waits, after)) : Steps collector [] after := by
  obtain ⟨requests, rfl⟩ := request_eq_ok ran
  exact .one (.queued requests)

end Steps

section Operations

variable [MemorySource Source] [PromotionPolicy Policy] [Listener Hearer]
variable {Roots : Type} [RootProvider Roots] {roots : Roots}

theorem steps_of_collectMinor {answer : Answer CycleReport}
    (ran : collector.collectMinor roots = .ok (answer, after)) : Steps collector [] after := by
  rcases collectMinor_eq_ok ran with ⟨_, _, _, rfl⟩ | ⟨_, _, _, _, _, _, _, cycle, tuned, counts⟩
  · exact .refl _
  · exact .one (.minor cycle tuned counts)

omit [PromotionPolicy Policy] in
theorem steps_of_collectMajor {answer : Answer CycleReport}
    (ran : collector.collectMajor roots = .ok (answer, after)) : Steps collector [] after := by
  rcases collectMajor_eq_ok ran with ⟨_, _, _, rfl⟩ | ⟨_, _, _, _, _, cycle, counts⟩
  · exact .refl _
  · exact .one (.major cycle counts)

theorem steps_of_collect {kind : CycleKind} {answer : Answer CycleReport}
    (ran : collector.collect kind roots = .ok (answer, after)) : Steps collector [] after := by
  cases kind with
  | minor => exact steps_of_collectMinor ran
  | major => exact steps_of_collectMajor ran

/-- The size of an object that was placed. -/
def placedSize (size : Nat) (answer : Answer Handle) : Option Nat :=
  answer.toOption.map fun _ => size

theorem Climbs.steps {size fieldCount : Nat} {kinds : List CycleKind} {answer : Answer Handle}
    (climbs : collector.Climbs roots size fieldCount kinds answer after) :
    Steps collector (placedSize size answer).toList after := by
  cases climbs with
  | atOnce placed => exact .one (.placed placed)
  | afterMinor _ minor placed => exact (steps_of_collectMinor minor).trans (.one (.placed placed))
  | afterMajor _ minor _ major placed =>
      have cycles := (steps_of_collectMinor minor).trans (steps_of_collectMajor major)
      exact cycles.trans (.one (.placed placed))
  | gaveUp _ minor _ major _ gaveUp =>
      have cycles := (steps_of_collectMinor minor).trans (steps_of_collectMajor major)
      obtain ⟨_, _, _, _, _, _, _, rfl⟩ := giveUp_eq_ok gaveUp
      exact cycles.trans (.one (.gaveUp _))

theorem steps_of_allocate {size fieldCount : Nat} {answer : Answer Handle}
    (ran : collector.allocate roots size fieldCount = .ok (answer, after)) :
    Steps collector (placedSize size answer).toList after := by
  cases healthy : collector.poison with
  | none =>
      obtain ⟨kinds, climbs⟩ := climbs_of_allocate healthy ran
      exact climbs.steps
  | some failure =>
      simp only [allocate, checkPoison, healthy, Checked.pure_eq_ok_iff, Prod.mk.injEq] at ran
      obtain ⟨rfl, rfl⟩ := ran
      exact .refl collector

theorem steps_of_serve {remaining : Nat} {reports : List CycleReport}
    {answer : Answer (List CycleReport)}
    (ran : serve roots remaining reports collector = .ok (answer, after)) :
    Steps collector [] after := by
  induction remaining generalizing reports collector with
  | zero => simp [serve] at ran
  | succ remaining ih =>
      unfold serve at ran
      rcases taken : collector.requests.take with ⟨_ | kind, requests⟩
      · simp only [taken, Except.ok.injEq, Prod.mk.injEq] at ran
        obtain ⟨_, rfl⟩ := ran
        exact .refl collector
      · simp only [taken, Checked.bind_eq_ok_iff] at ran
        obtain ⟨⟨collected, middle⟩, cycle, ran⟩ := ran
        have first : Steps collector [] middle :=
          (Steps.one (.queued requests)).trans (steps_of_collect cycle)
        cases collected with
        | error failure =>
            simp only [Checked.pure_eq_ok_iff, Prod.mk.injEq] at ran
            obtain ⟨_, rfl⟩ := ran
            exact first
        | ok report => exact first.trans (ih ran)

theorem steps_of_runPending {answer : Answer (List CycleReport)}
    (ran : collector.runPending roots = .ok (answer, after)) : Steps collector [] after := by
  unfold runPending at ran
  split at ran
  · simp only [Except.ok.injEq, Prod.mk.injEq] at ran
    obtain ⟨_, rfl⟩ := ran
    exact .refl collector
  · exact steps_of_serve ran

end Operations

end Tenure.Collector
