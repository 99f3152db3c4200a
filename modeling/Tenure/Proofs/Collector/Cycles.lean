import Tenure.Collector.Allocation
import Tenure.Collector.Service
import Tenure.Proofs.Heap.Major
import Tenure.Proofs.Heap.Minor

/-!
# What a cycle does to a collector

An idle collector runs the cycle of its heap with its live roots. Then it is idle again,
its counters say what was reclaimed, and all else that changes is the queue of requests,
the states of the listeners and of the policy, and the threshold.
-/

set_option autoImplicit false

namespace Tenure

/-! ## Totals -/

/-- What the counters say of one more cycle. -/
structure Totals.Counts (kind : CycleKind) (objects bytes : Nat) (failed : Bool)
    (totals after : Totals) : Prop where
  minorCycles : after.minorCycles = totals.minorCycles + if kind = .minor then 1 else 0
  majorCycles : after.majorCycles = totals.majorCycles + if kind = .major then 1 else 0
  objectsReclaimed : after.objectsReclaimed = totals.objectsReclaimed + objects
  bytesReclaimed : after.bytesReclaimed = totals.bytesReclaimed + bytes
  promotionFailures : after.promotionFailures = totals.promotionFailures + failed.toNat
  allocationFailures : after.allocationFailures = totals.allocationFailures

theorem Totals.countCycle_eq_ok {totals counted : Totals} {report : CycleReport}
    (ran : totals.countCycle report = .ok counted) : counted =
      { totals with
        minorCycles := totals.minorCycles + if report.kind = .minor then 1 else 0
        majorCycles := totals.majorCycles + if report.kind = .major then 1 else 0
        lastSurvivalRate :=
          if report.kind = .minor then report.survivalRate else totals.lastSurvivalRate } := by
  unfold countCycle at ran
  cases kind : report.kind with
  | minor =>
      simp only [kind, Checked.bind_eq_ok_iff, Word.add_eq_ok_iff, Checked.pure_eq_ok_iff] at ran
      obtain ⟨_, ⟨_, rfl⟩, rfl⟩ := ran
      rfl
  | major =>
      simp only [kind, Checked.bind_eq_ok_iff, Word.add_eq_ok_iff, Checked.pure_eq_ok_iff] at ran
      obtain ⟨_, ⟨_, rfl⟩, rfl⟩ := ran
      rfl

theorem Totals.record_eq_ok {totals after : Totals} {report : CycleReport}
    (ran : totals.record report = .ok after) :
    totals.Counts report.kind report.objectsReclaimed report.bytesReclaimed false after ∧
      after.objectsPromoted = totals.objectsPromoted + report.promoted ∧
      after.thresholdChanges = totals.thresholdChanges ∧
      after.lastSurvivalRate =
        if report.kind = .minor then report.survivalRate else totals.lastSurvivalRate := by
  unfold record at ran
  simp only [Checked.bind_eq_ok_iff, Word.add_eq_ok_iff, Checked.pure_eq_ok_iff] at ran
  obtain ⟨_, count, _, ⟨_, rfl⟩, _, ⟨_, rfl⟩, _, ⟨_, rfl⟩, rfl⟩ := ran
  obtain rfl := countCycle_eq_ok count
  exact ⟨⟨rfl, rfl, rfl, rfl, rfl, rfl⟩, rfl, rfl, rfl⟩

theorem Heap.setThreshold_current {Source : Type} (heap : Heap Source) :
    (heap.setThreshold heap.threshold).2 = heap := by
  unfold setThreshold
  split <;> rfl

/-! ## Requests -/

theorem Requests.isEmpty_iff {requests : Requests} :
    requests.isEmpty = true ↔ requests.minor = false ∧ requests.major = false := by
  simp only [isEmpty, Bool.and_eq_true, Bool.not_eq_true']

/-- A request for a major cycle came in for each of some reasons that held. -/
structure Requests.MajorsAsked (reasons : List Bool) (requests after : Requests) : Prop where
  minor : after.minor = requests.minor
  major : after.major = (requests.major || reasons.any id)
  dropped : after.dropped ≤ requests.dropped + reasons.length

theorem Requests.MajorsAsked.trans {reasons more : List Bool} {requests middle after : Requests}
    (first : requests.MajorsAsked reasons middle) (second : middle.MajorsAsked more after) :
    requests.MajorsAsked (reasons ++ more) after where
  minor := second.minor.trans first.minor
  major := by rw [second.major, first.major, List.any_append, Bool.or_assoc]
  dropped := by
    have earlier := first.dropped
    have later := second.dropped
    rw [List.length_append]
    omega

theorem Requests.majorsAsked_of_push {requests after : Requests} {waits : Bool}
    (ran : requests.push .major = .ok (waits, after)) : requests.MajorsAsked [true] after := by
  unfold push at ran
  split at ran
  · rename_i waited
    simp only [Checked.bind_eq_ok_iff, Word.add_eq_ok_iff, Checked.pure_eq_ok_iff,
      Prod.mk.injEq] at ran
    obtain ⟨_, ⟨_, rfl⟩, _, rfl⟩ := ran
    exact ⟨rfl, (show requests.major = true from waited).trans (by simp), Nat.le_refl _⟩
  · simp only [Except.ok.injEq, Prod.mk.injEq] at ran
    obtain ⟨_, rfl⟩ := ran
    exact ⟨rfl, (Bool.or_true _).symm, Nat.le_succ _⟩

/-! ## Reports -/

def MinorOutcome.report (outcome : MinorOutcome) (number : Nat) : CycleReport where
  kind := .minor
  number := number
  pause := 0
  bytesReclaimed := outcome.bytesReclaimed
  objectsReclaimed := outcome.objectsReclaimed
  survivalRate := outcome.survival.rate
  promoted := outcome.promoted + outcome.overflowPromoted
  traceSteps := outcome.trace.steps

def MajorOutcome.report (outcome : MajorOutcome) (number : Nat) : CycleReport where
  kind := .major
  number := number
  pause := 0
  bytesReclaimed := outcome.bytesReclaimed
  objectsReclaimed := outcome.objectsReclaimed
  survivalRate := 0.0
  promoted := 0
  traceSteps := outcome.trace.steps

namespace Collector

variable {Source Policy Hearer : Type} {collector after : Collector Source Policy Hearer}

/-! ## Parts of a cycle -/

theorem checkPoison_eq_ok_iff : collector.checkPoison = .ok () ↔ collector.poison = none := by
  unfold checkPoison
  cases collector.poison with
  | none => simp
  | some failure => simp

/-- The listeners hear of an event, and what they ask for waits. -/
theorem emit_eq_ok [Listener Hearer] {event : Event} (ran : collector.emit event = .ok after) :
    ∃ requests,
      collector.requests.pushAll (Listener.hear collector.hearer collector.phase event).1 =
        .ok requests ∧
      after = { collector with
        hearer := (Listener.hear collector.hearer collector.phase event).2
        requests } := by
  unfold emit at ran
  simp only [Checked.bind_eq_ok_iff, Checked.pure_eq_ok_iff] at ran
  obtain ⟨requests, asked, rfl⟩ := ran
  exact ⟨requests, asked, rfl⟩

theorem enter_eq_ok [Listener Hearer] {kind : CycleKind} (ran : collector.enter kind = .ok after) :
    collector.phase = .idle ∧ collector.cycle + 1 < Word.limit ∧ ∃ requests,
      (collector.requests.clear kind).pushAll (Listener.hear collector.hearer (.during kind)
        (.started kind (collector.cycle + 1))).1 = .ok requests ∧
      after = { collector with
        hearer := (Listener.hear collector.hearer (.during kind)
          (.started kind (collector.cycle + 1))).2
        requests
        cycle := collector.cycle + 1
        phase := .during kind } := by
  unfold enter at ran
  simp only [Checked.bind_eq_ok_iff, Word.add_eq_ok_iff] at ran
  obtain ⟨_, ⟨numbered, rfl⟩, ran⟩ := ran
  split at ran
  · obtain ⟨_, thrown, _⟩ := Checked.bind_eq_ok_iff.mp ran
    exact absurd thrown Checked.throw_ne_ok
  · rename_i idle
    exact ⟨not_not.mp idle, numbered, emit_eq_ok ran⟩

theorem conclude_eq_ok [Listener Hearer] {report : CycleReport}
    (ran : collector.conclude report = .ok after) :
    ∃ totals requests, collector.totals.record report = .ok totals ∧
      collector.requests.pushAll
        (Listener.hear collector.hearer collector.phase (.finished report)).1 = .ok requests ∧
      after = { collector with
        totals
        hearer := (Listener.hear collector.hearer collector.phase (.finished report)).2
        requests } := by
  unfold conclude at ran
  simp only [Checked.bind_eq_ok_iff] at ran
  obtain ⟨totals, recorded, ran⟩ := ran
  obtain ⟨requests, asked, rfl⟩ := emit_eq_ok ran
  exact ⟨totals, requests, recorded, asked, rfl⟩

/-- Tuning sets the threshold at most, and counts that. -/
theorem tune_eq_ok [PromotionPolicy Policy] (ran : collector.tune = .ok after) :
    ∃ policy threshold thresholdChanges,
      thresholdChanges ≤ collector.totals.thresholdChanges + 1 ∧ after =
        { collector with
          policy
          heap := (collector.heap.setThreshold threshold).2
          totals := { collector.totals with thresholdChanges } } := by
  unfold tune at ran
  rcases suggested : PromotionPolicy.next collector.policy collector.heap.threshold
    collector.heap.survival with ⟨_ | threshold, policy⟩
  · simp only [suggested, Checked.pure_eq_ok_iff] at ran
    refine ⟨policy, collector.heap.threshold, collector.totals.thresholdChanges, Nat.le_succ _, ?_⟩
    rw [Heap.setThreshold_current, ran]
  · simp only [suggested] at ran
    refine ⟨policy, threshold, ?_⟩
    unfold Heap.setThreshold at ran ⊢
    cases checked : checkThreshold threshold with
    | ok _ =>
        simp only [checked, Checked.bind_eq_ok_iff, Word.add_eq_ok_iff,
          Checked.pure_eq_ok_iff] at ran
        obtain ⟨changes, ⟨_, rfl⟩, rfl⟩ := ran
        exact ⟨_, Nat.le_refl _, rfl⟩
    | error failure =>
        simp only [checked, Checked.pure_eq_ok_iff] at ran
        exact ⟨collector.totals.thresholdChanges, Nat.le_succ _, ran.symm⟩

theorem request_eq_ok {kind : CycleKind} {waits : Bool}
    (ran : collector.request kind = .ok (waits, after)) :
    ∃ requests, after = { collector with requests } := by
  unfold request at ran
  simp only [Checked.bind_eq_ok_iff, Checked.pure_eq_ok_iff, Prod.mk.injEq] at ran
  obtain ⟨⟨_, requests⟩, _, _, rfl⟩ := ran
  exact ⟨requests, rfl⟩

theorem requestMajorIf_eq_ok {condition : Bool}
    (ran : collector.requestMajorIf condition = .ok after) :
    ∃ requests, collector.requests.MajorsAsked [condition] requests ∧
      after = { collector with requests } := by
  unfold requestMajorIf at ran
  split at ran
  · rename_i holds
    simp only [request, Checked.bind_eq_ok_iff, Checked.pure_eq_ok_iff] at ran
    obtain ⟨_, ⟨⟨_, requests⟩, pushed, rfl⟩, rfl⟩ := ran
    rw [holds]
    exact ⟨requests, Requests.majorsAsked_of_push pushed, rfl⟩
  · rename_i fails
    rw [Checked.pure_eq_ok_iff] at ran
    rw [Bool.eq_false_iff.mpr fails]
    exact ⟨collector.requests, ⟨rfl, (Bool.or_false _).symm, Nat.le_succ _⟩, ran.symm⟩

/-- The reasons for a major cycle: a failed promotion, a full old space, enough minor cycles
since the last major one. -/
def reasons (collector : Collector Source Policy Hearer) (promotionFailed : Bool) : List Bool :=
  [promotionFailed,
    collector.heap.old.occupancy ≥ collector.heap.settings.oldGrowthTrigger,
    collector.heap.settings.majorCycleInterval.toNat > 0 &&
      collector.minorsSinceMajor ≥ collector.heap.settings.majorCycleInterval.toNat]

theorem checkTriggers_eq_ok {promotionFailed : Bool}
    (ran : collector.checkTriggers promotionFailed = .ok after) :
    ∃ requests, collector.requests.MajorsAsked (collector.reasons promotionFailed) requests ∧
      after = { collector with
        requests
        totals := { collector.totals with
          promotionFailures := collector.totals.promotionFailures + promotionFailed.toNat } } := by
  unfold checkTriggers at ran
  cases promotionFailed with
  | false =>
      simp only [Bool.false_eq_true, ↓reduceIte, Checked.bind_eq_ok_iff,
        Checked.pure_eq_ok_iff] at ran
      obtain ⟨_, rfl, _, first, _, second, third⟩ := ran
      obtain ⟨_, failed, rfl⟩ := requestMajorIf_eq_ok first
      obtain ⟨_, filled, rfl⟩ := requestMajorIf_eq_ok second
      obtain ⟨requests, due, rfl⟩ := requestMajorIf_eq_ok third
      exact ⟨requests, (failed.trans filled).trans due, rfl⟩
  | true =>
      simp only [↓reduceIte, Checked.bind_eq_ok_iff, Word.add_eq_ok_iff] at ran
      obtain ⟨_, ⟨_, rfl⟩, _, first, _, second, third⟩ := ran
      obtain ⟨_, failed, rfl⟩ := requestMajorIf_eq_ok first
      obtain ⟨_, filled, rfl⟩ := requestMajorIf_eq_ok second
      obtain ⟨requests, due, rfl⟩ := requestMajorIf_eq_ok third
      exact ⟨requests, (failed.trans filled).trans due, rfl⟩

/-! ## Cycles -/

/-- A collector has run a cycle, which is its next one, and is idle again. -/
structure Ran (kind : CycleKind) (objects bytes : Nat) (failed : Bool)
    (collector after : Collector Source Policy Hearer) : Prop where
  idle : collector.phase = .idle
  phase : after.phase = .idle
  poison : after.poison = collector.poison
  cycle : after.cycle = collector.cycle + 1
  totals : collector.totals.Counts kind objects bytes failed after.totals

section Cycles

variable [MemorySource Source] [Listener Hearer] {Roots : Type} [RootProvider Roots]
  {roots : Roots} {answer : Answer CycleReport}

theorem collectMinor_stages [PromotionPolicy Policy] (healthy : collector.checkPoison = .ok ())
    (ran : collector.collectMinor roots = .ok (answer, after)) :
    ∃ entered outcome heap next concluded tuned,
      collector.enter .minor = .ok entered ∧
      entered.heap.minorCycle entered.marker (collector.liveRoots roots) =
        .ok (.ok outcome, heap, next) ∧
      conclude { entered with heap, marker := next, phase := .idle }
        (outcome.report entered.cycle) = .ok concluded ∧
      tune { concluded with minorsSinceMajor := concluded.minorsSinceMajor + 1 } = .ok tuned ∧
      tuned.checkTriggers outcome.promotionFailed = .ok after ∧
      answer = .ok (outcome.report entered.cycle) := by
  unfold collectMinor at ran
  simp only [healthy, Checked.bind_eq_ok_iff] at ran
  obtain ⟨entered, enter, ⟨answered, heap, next⟩, cycle, ran⟩ := ran
  obtain ⟨outcome, rfl, _⟩ := Heap.minorCycle_reports cycle
  simp only [Checked.bind_eq_ok_iff, Word.add_eq_ok_iff, Checked.pure_eq_ok_iff,
    Prod.mk.injEq] at ran
  obtain ⟨concluded, conclude, _, ⟨_, rfl⟩, tuned, tune, _, check, answered, rfl⟩ := ran
  exact ⟨entered, outcome, heap, next, concluded, tuned, enter, cycle, conclude, tune, check,
    answered.symm⟩

theorem collectMajor_stages (healthy : collector.checkPoison = .ok ())
    (ran : collector.collectMajor roots = .ok (answer, after)) :
    ∃ entered outcome heap next concluded,
      collector.enter .major = .ok entered ∧
      entered.heap.majorCycle entered.marker (collector.liveRoots roots) =
        .ok (.ok outcome, heap, next) ∧
      conclude { entered with heap, marker := next, phase := .idle }
        (outcome.report entered.cycle) = .ok concluded ∧
      answer = .ok (outcome.report entered.cycle) ∧
      after = { concluded with minorsSinceMajor := 0 } := by
  unfold collectMajor at ran
  simp only [healthy, Checked.bind_eq_ok_iff] at ran
  obtain ⟨entered, enter, ⟨answered, heap, next⟩, cycle, ran⟩ := ran
  obtain ⟨outcome, rfl, _⟩ := Heap.majorCycle_eq_ok cycle
  simp only [Checked.bind_eq_ok_iff, Checked.pure_eq_ok_iff, Prod.mk.injEq] at ran
  obtain ⟨concluded, conclude, answered, rfl⟩ := ran
  exact ⟨entered, outcome, heap, next, concluded, enter, cycle, conclude, answered.symm, rfl⟩

/-- A collector refuses a minor cycle, or runs one on its heap and tunes the threshold. -/
theorem collectMinor_eq_ok [PromotionPolicy Policy]
    (ran : collector.collectMinor roots = .ok (answer, after)) :
    (∃ failure, collector.checkPoison = .error failure ∧ answer = .error failure ∧
      after = collector) ∨
    (collector.checkPoison = .ok () ∧ ∃ report outcome heap next threshold,
      answer = .ok report ∧
      collector.heap.minorCycle collector.marker (collector.liveRoots roots) =
        .ok (.ok outcome, heap, next) ∧
      after.heap = (heap.setThreshold threshold).2 ∧
      collector.Ran .minor outcome.objectsReclaimed outcome.bytesReclaimed
        outcome.promotionFailed after) := by
  cases poison : collector.checkPoison with
  | error failure =>
      unfold collectMinor at ran
      simp only [poison, Checked.pure_eq_ok_iff, Prod.mk.injEq] at ran
      exact .inl ⟨failure, rfl, ran.1.symm, ran.2.symm⟩
  | ok _ =>
      obtain ⟨_, outcome, heap, next, _, _, enter, cycle, conclude, tune, check, answered⟩ :=
        collectMinor_stages poison ran
      obtain ⟨idle, _, _, _, rfl⟩ := enter_eq_ok enter
      obtain ⟨totals, _, recorded, _, rfl⟩ := conclude_eq_ok conclude
      obtain ⟨policy, threshold, changes, _, rfl⟩ := tune_eq_ok tune
      obtain ⟨_, _, rfl⟩ := checkTriggers_eq_ok check
      obtain ⟨counts, _⟩ := Totals.record_eq_ok recorded
      refine .inr ⟨rfl, _, outcome, heap, next, threshold, answered, cycle, rfl,
        idle, rfl, rfl, rfl, ?_⟩
      exact
        { minorCycles := counts.minorCycles
          majorCycles := counts.majorCycles
          objectsReclaimed := counts.objectsReclaimed
          bytesReclaimed := counts.bytesReclaimed
          promotionFailures := congrArg (· + _) counts.promotionFailures
          allocationFailures := counts.allocationFailures }

/-- A collector refuses a major cycle, or runs one on its heap. -/
theorem collectMajor_eq_ok (ran : collector.collectMajor roots = .ok (answer, after)) :
    (∃ failure, collector.checkPoison = .error failure ∧ answer = .error failure ∧
      after = collector) ∨
    (collector.checkPoison = .ok () ∧ ∃ report outcome next,
      answer = .ok report ∧
      collector.heap.majorCycle collector.marker (collector.liveRoots roots) =
        .ok (.ok outcome, after.heap, next) ∧
      collector.Ran .major outcome.objectsReclaimed outcome.bytesReclaimed false after) := by
  cases poison : collector.checkPoison with
  | error failure =>
      unfold collectMajor at ran
      simp only [poison, Checked.pure_eq_ok_iff, Prod.mk.injEq] at ran
      exact .inl ⟨failure, rfl, ran.1.symm, ran.2.symm⟩
  | ok _ =>
      obtain ⟨_, outcome, _, next, _, enter, cycle, conclude, answered, rfl⟩ :=
        collectMajor_stages poison ran
      obtain ⟨idle, _, _, _, rfl⟩ := enter_eq_ok enter
      obtain ⟨totals, _, recorded, _, rfl⟩ := conclude_eq_ok conclude
      exact .inr ⟨rfl, _, outcome, next, answered, cycle, idle, rfl, rfl, rfl,
        (Totals.record_eq_ok recorded).1⟩

end Cycles

/-- A collector that gives up counts that, and reports the room that there is. -/
theorem giveUp_eq_ok {size : Nat} {failure : Failure}
    (ran : collector.giveUp size = .ok (failure, after)) :
    ∃ requested edenFree oldFree, failure = .allocationFailure requested edenFree oldFree ∧
      alignSize size = .ok requested ∧ collector.heap.eden.free = .ok edenFree ∧
      collector.heap.old.free = .ok oldFree ∧ after =
        { collector with totals := { collector.totals with
          allocationFailures := collector.totals.allocationFailures + 1 } } := by
  unfold giveUp at ran
  simp only [Checked.bind_eq_ok_iff, Word.add_eq_ok_iff, Checked.pure_eq_ok_iff,
    Prod.mk.injEq] at ran
  obtain ⟨_, ⟨_, rfl⟩, requested, rounded, edenFree, eden, oldFree, old, rfl, rfl⟩ := ran
  exact ⟨requested, edenFree, oldFree, rfl, rounded, eden, old, rfl⟩

end Collector

end Tenure
