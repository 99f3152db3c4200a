import Tenure.Proofs.Collector.Course
import Tenure.Proofs.Heap.Effort

/-!
# The log and the totals

A log that hears of every event from the beginning tells the course of a collector: each
cycle is started and finished under the next number, and the totals are those of the
reports. The steps in a report are those that the objects on the way of its trace need.
-/

set_option autoImplicit false

namespace Tenure

/-! ## Logs -/

/-- One of the listeners is a log, which no event escapes. -/
def Logs {Hearer : Type} [Listener Hearer] (log : Hearer → EventLog) : Prop :=
  ∀ (hearer : Hearer) (phase : Phase) (event : Event),
    log (Listener.hear hearer phase event).2 = (log hearer).record event

theorem logs_eventLog : Logs fun log : EventLog => log := fun _ _ _ => rfl

/-- A log stays one beside another listener. -/
theorem Logs.beside {First Second : Type} [Listener First] [Listener Second]
    {log : First → EventLog} (logs : Logs log) :
    Logs fun hearers : First × Second => log hearers.1 :=
  fun hearers phase event => logs hearers.1 phase event

/-- What a log hears of a cycle. -/
def CycleReport.events (report : CycleReport) : List Event :=
  [.started report.kind report.number, .finished report]

theorem filterMap_report?_flatMap (reports : List CycleReport) :
    (reports.flatMap CycleReport.events).filterMap Event.report? = reports := by
  induction reports with
  | nil => rfl
  | cons report rest ih =>
      rw [List.flatMap_cons, List.filterMap_append, ih]
      rfl

/-! ## Totals -/

/-- The totals are the counts and sums over the reports. -/
structure Totals.Tells (reports : List CycleReport) (totals : Totals) : Prop where
  minorCycles : totals.minorCycles = reports.countP fun report => report.kind = .minor
  majorCycles : totals.majorCycles = reports.countP fun report => report.kind = .major
  objectsReclaimed : totals.objectsReclaimed = (reports.map CycleReport.objectsReclaimed).sum
  bytesReclaimed : totals.bytesReclaimed = (reports.map CycleReport.bytesReclaimed).sum
  objectsPromoted : totals.objectsPromoted = (reports.map CycleReport.promoted).sum
  lastSurvivalRate : totals.lastSurvivalRate =
    ((reports.filter fun report => report.kind = .minor).getLast?.map
      CycleReport.survivalRate).getD 0.0

theorem Totals.Tells.record {reports : List CycleReport} {report : CycleReport}
    {totals after : Totals} (tells : totals.Tells reports) (records : totals.Records report after) :
    after.Tells (reports ++ [report]) where
  minorCycles := by
    rw [records.minorCycles, tells.minorCycles, List.countP_append, List.countP_singleton]
    simp only [decide_eq_true_eq]
  majorCycles := by
    rw [records.majorCycles, tells.majorCycles, List.countP_append, List.countP_singleton]
    simp only [decide_eq_true_eq]
  objectsReclaimed := by
    simp [records.objectsReclaimed, tells.objectsReclaimed]
  bytesReclaimed := by
    simp [records.bytesReclaimed, tells.bytesReclaimed]
  objectsPromoted := by
    simp [records.objectsPromoted, tells.objectsPromoted]
  lastSurvivalRate := by
    rw [records.lastSurvivalRate, List.filter_append]
    split
    · rename_i minor
      simp [minor]
    · rename_i major
      simp [major, tells.lastSurvivalRate]

/-! ## Cycles -/

/-- What the trace of a cycle has to visit: the young objects that are needed if it is a
minor one, otherwise all objects that paths lead to from live roots. -/
def CycleRun.Traces {Source : Type} (cycle : CycleRun Source) (handle : Handle) : Prop :=
  match cycle.report.kind with
  | .minor =>
    cycle.before.directory.isYoung handle = true ∧ cycle.before.Needed cycle.roots handle
  | .major =>
    ∃ root ∈ cycle.roots, cycle.before.directory.isLive root = true ∧
      cycle.before.directory.graph.Leads root handle

namespace Collector

variable {Source Policy Hearer : Type} {collector after : Collector Source Policy Hearer}

section Roots

variable {Roots : Type} [RootProvider Roots] {roots : Roots}

theorem needed_liveRoots_iff {handle : Handle} :
    collector.heap.Needed (collector.liveRoots roots) handle ↔
      collector.heap.Needed (RootProvider.current roots) handle := by
  refine exists_congr fun root => and_congr_right fun live => and_congr_left fun _ => ?_
  exact or_congr_left (List.mem_filter.trans (and_iff_left live))

theorem leads_liveRoots_iff {handle : Handle} :
    (∃ root ∈ collector.liveRoots roots, collector.heap.directory.isLive root = true ∧
        collector.heap.directory.graph.Leads root handle) ↔
      ∃ root ∈ RootProvider.current roots, collector.heap.directory.isLive root = true ∧
        collector.heap.directory.graph.Leads root handle := by
  refine exists_congr fun root => and_congr_left fun ⟨live, _⟩ => ?_
  exact List.mem_filter.trans (and_iff_left live)

end Roots

variable [MemorySource Source] [PromotionPolicy Policy] [Listener Hearer]

theorem Stands.takesSteps {Roots : Type} [RootProvider Roots] {roots : Roots} {kind : CycleKind}
    {reports : List CycleReport} {report : CycleReport} (stands : collector.Stands reports)
    (ran : collector.collect kind roots = .ok (.ok report, after)) :
    TakesSteps (CycleRun.Traces {
        roots := RootProvider.current roots
        before := collector.heap
        after := after.heap
        report })
      collector.heap.settings.stepBudget.toNat report.traceSteps := by
  have sound := stands.attainable.sound
  have positive := Heap.toNat_pos_of_ne_zero stands.attainable.stepBudget_ne_zero
  cases kind with
  | minor =>
      obtain ⟨outcome, _, _, _, cycle, rfl, _⟩ := exists_outcome_of_collectMinor ran
      exact (sound.takesSteps_of_minorCycle positive cycle).congr fun _ =>
        and_congr_right fun _ => needed_liveRoots_iff
  | major =>
      obtain ⟨outcome, _, cycle, rfl, _⟩ := exists_outcome_of_collectMajor ran
      exact (sound.takesSteps_of_majorCycle positive cycle).congr fun _ => leads_liveRoots_iff

/-! ## Courses with a log -/

/-- The log, the totals and the cycles tell the same. -/
structure Chronicled (log : Hearer → EventLog) (cycles : List (CycleRun Source))
    (collector : Collector Source Policy Hearer) : Prop where
  idle : collector.phase = .idle
  reports : (log collector.hearer).reports = cycles.map CycleRun.report
  paired : (log collector.hearer).events.toList =
    (log collector.hearer).reports.flatMap CycleReport.events
  numbered : (log collector.hearer).reports.map CycleReport.number =
    List.range' 1 (log collector.hearer).reports.length
  tells : collector.currentTotals.Tells (log collector.hearer).reports
  steps : ∀ cycle ∈ cycles, TakesSteps cycle.Traces cycle.before.settings.stepBudget.toNat
    cycle.report.traceSteps

/-- What the log has heard and the totals, said with the reports of the cycles. -/
structure Recounts (log : EventLog) (reports : List CycleReport)
    (collector : Collector Source Policy Hearer) : Prop where
  events : log.events.toList = reports.flatMap CycleReport.events
  numbered : reports.map CycleReport.number = List.range' 1 reports.length
  tells : collector.totals.Tells reports

omit [PromotionPolicy Policy] in
theorem Recounts.collect {log : Hearer → EventLog} (logs : Logs log)
    {reports : List CycleReport} {report : CycleReport}
    (recounts : collector.Recounts (log collector.hearer) reports)
    (stands : collector.Stands reports) (reported : collector.Reports report after) :
    after.Recounts (log after.hearer) (reports ++ [report]) where
  events := by
    obtain ⟨phase, hearer⟩ := reported.hearer
    rw [hearer, logs, logs, List.flatMap_append, ← recounts.events]
    simp [EventLog.record, CycleReport.events]
  numbered := by
    rw [List.map_append, recounts.numbered, List.length_append, List.length_singleton,
      List.range'_1_concat, List.map_singleton, reported.number_eq, stands.cycle, Nat.add_comm]
  tells := recounts.tells.record reported.totals

namespace Course

variable {log : Hearer → EventLog} {cycles : List (CycleRun Source)}

theorem recounts (logs : Logs log) (course : Course log .empty cycles collector) :
    collector.Recounts (log collector.hearer) (cycles.map CycleRun.report) := by
  induction course with
  | began _ _ seen =>
      refine ⟨?_, rfl, rfl, rfl, rfl, rfl, rfl, rfl⟩
      exact congrArg (fun log : EventLog => log.events.toList) seen
  | queued _ requests ih => exact ⟨ih.events, ih.numbered, ih.tells⟩
  | touched _ ran ih => exact ⟨ih.events, ih.numbered, ih.tells⟩
  | gaveUp _ failures ih => exact ⟨ih.events, ih.numbered, { ih.tells with }⟩
  | cycled earlier ran ih =>
      rw [List.map_append]
      exact ih.collect logs earlier.stands (reports_of_collect ran).2
  | rewired _ policy seen ih =>
      refine ⟨?_, ih.numbered, ih.tells⟩
      rw [← ih.events]
      exact congrArg (fun log : EventLog => log.events.toList) seen

theorem steps (course : Course log .empty cycles collector) : ∀ cycle ∈ cycles,
    TakesSteps cycle.Traces cycle.before.settings.stepBudget.toNat cycle.report.traceSteps := by
  induction course with
  | began _ _ _ => simp
  | queued _ _ ih => exact ih
  | touched _ _ ih => exact ih
  | gaveUp _ _ ih => exact ih
  | cycled earlier ran ih =>
      intro cycle member
      rcases List.mem_append.mp member with before | latest
      · exact ih cycle before
      · rw [List.mem_singleton.mp latest]
        exact earlier.stands.takesSteps ran
  | rewired _ _ _ ih => exact ih

theorem chronicled (logs : Logs log) (course : Course log .empty cycles collector) :
    collector.Chronicled log cycles := by
  have recounts := course.recounts logs
  have reports : (log collector.hearer).reports = cycles.map CycleRun.report := by
    rw [EventLog.reports, recounts.events, filterMap_report?_flatMap]
  exact
    { idle := course.stands.idle
      reports
      paired := reports ▸ recounts.events
      numbered := reports ▸ recounts.numbered
      tells := reports ▸ { recounts.tells with }
      steps := course.steps }

end Course

/-- Whatever is asked of a collector with a log from the beginning, the log and the totals
agree on its cycles. -/
theorem log_and_totals_agree {log : Hearer → EventLog} (logs : Logs log)
    {cycles : List (CycleRun Source)} (course : Course log .empty cycles collector) :
    collector.Chronicled log cycles ∧
      ∀ (Roots : Type) [RootProvider Roots] (operations : List (Operation Roots))
        (after : Collector Source Policy Hearer),
        collector.performAll operations = .ok after → ∃ later,
          Course log .empty (cycles ++ later) after ∧ after.Chronicled log (cycles ++ later) := by
  refine ⟨course.chronicled logs, fun Roots _ operations after ran => ?_⟩
  obtain ⟨later, continued⟩ := course.performAll ran
  exact ⟨later, continued, continued.chronicled logs⟩

/-- An object survives a minor cycle, and then requests of both kinds are served. -/
def servedOperations : List (Operation (List Handle)) :=
  [.allocate [] 16 1, .collect .minor [Heap.firstHandle], .request .major, .request .minor,
    .runPending [Heap.firstHandle]]

theorem log_and_totals_agree_when_served :
    ∃ (cycles : List (CycleRun WindowedMemory))
      (collector after : Collector WindowedMemory FixedPromotion (EventLog × Unit)),
      Course (fun hearers : EventLog × Unit => hearers.1) .empty cycles collector ∧
      cycles.map (fun cycle => cycle.report.kind) = [.minor, .minor, .major] ∧
      collector.Chronicled (fun hearers => hearers.1) cycles ∧
      collector.performAll [Operation.collect .major ([] : List Handle)] = .ok after ∧
      ∃ later, after.Chronicled (fun hearers => hearers.1) (cycles ++ later) := by
  obtain ⟨cycles, collector, course, facts⟩ := course_of_leadsTo
    (show leadsTo Heap.smallSettings none FixedPromotion.mk (EventLog.empty, ()) servedOperations
      (fun collector =>
        decide (collector.hearer.1.reports.map CycleReport.kind = [.minor, .minor, .major]) &&
          (collector.performAll [Operation.collect .major ([] : List Handle)]).isOk) = true
      by decide +kernel) fun hearers : EventLog × Unit => hearers.1
  rw [Bool.and_eq_true, decide_eq_true_eq] at facts
  obtain ⟨kinds, runs⟩ := facts
  obtain ⟨after, ran⟩ := Checked.isOk_iff.mp runs
  obtain ⟨chronicled, continues⟩ := log_and_totals_agree logs_eventLog.beside course
  obtain ⟨later, _, continued⟩ := continues (List Handle) _ after ran
  rw [chronicled.reports, List.map_map] at kinds
  exact ⟨cycles, collector, after, course, kinds, chronicled, ran, later, continued⟩

end Collector

end Tenure
