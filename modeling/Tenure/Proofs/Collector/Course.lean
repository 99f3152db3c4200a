import Mathlib.Data.List.DropRight
import Tenure.Proofs.Collector.Reachable

/-!
# Courses of collectors

A collector begins over a heap. Then it runs cycles, and between them requests come and go,
its heap is used, an allocation is given up, or the policy and the listeners are exchanged.
Every operation is such a course. What listeners have been told is not lost if the exchange
respects it, so a course is told with a view of the listeners that only cycles change.
-/

set_option autoImplicit false

namespace Tenure

/-- A cycle that a collector ran: the roots that were given to it, the heaps around it and
its report. -/
structure CycleRun (Source : Type) where
  roots : List Handle
  before : Heap Source
  after : Heap Source
  report : CycleReport

/-- The minor cycles after the last major one. -/
def trailingMinors (reports : List CycleReport) : List CycleReport :=
  reports.rtakeWhile fun report => report.kind = .minor

theorem length_trailingMinors_concat (reports : List CycleReport) (report : CycleReport) :
    (trailingMinors (reports ++ [report])).length =
      if report.kind = .minor then (trailingMinors reports).length + 1 else 0 := by
  unfold trailingMinors
  split
  · rename_i minor
    rw [List.rtakeWhile_concat_pos _ _ _ (by simpa using minor), List.length_append]
    rfl
  · rename_i major
    rw [List.rtakeWhile_concat_neg _ _ _ (by simpa using major)]
    rfl

/-- What the totals say of one more report. -/
structure Totals.Records (report : CycleReport) (totals after : Totals) : Prop where
  minorCycles : after.minorCycles = totals.minorCycles + if report.kind = .minor then 1 else 0
  majorCycles : after.majorCycles = totals.majorCycles + if report.kind = .major then 1 else 0
  objectsReclaimed : after.objectsReclaimed = totals.objectsReclaimed + report.objectsReclaimed
  bytesReclaimed : after.bytesReclaimed = totals.bytesReclaimed + report.bytesReclaimed
  objectsPromoted : after.objectsPromoted = totals.objectsPromoted + report.promoted
  lastSurvivalRate : after.lastSurvivalRate =
    if report.kind = .minor then report.survivalRate else totals.lastSurvivalRate

theorem Totals.records_of_record {totals after : Totals} {report : CycleReport}
    (ran : totals.record report = .ok after) : totals.Records report after := by
  obtain ⟨counts, promoted, _, survival⟩ := record_eq_ok ran
  exact ⟨counts.minorCycles, counts.majorCycles, counts.objectsReclaimed, counts.bytesReclaimed,
    promoted, survival⟩

namespace Collector

variable {Source Policy Hearer : Type} {collector after : Collector Source Policy Hearer}

/-! ## Reports -/

/-- What a cycle with this report leaves beside the heap. -/
structure Reports [Listener Hearer] (report : CycleReport)
    (collector after : Collector Source Policy Hearer) : Prop where
  number_eq : report.number = collector.cycle + 1
  cycle : after.cycle = collector.cycle + 1
  cycle_lt : after.cycle < Word.limit
  phase : after.phase = .idle
  poison : after.poison = collector.poison
  minorsSinceMajor : after.minorsSinceMajor =
    if report.kind = .minor then collector.minorsSinceMajor + 1 else 0
  hearer : ∃ phase, after.hearer = (Listener.hear
    (Listener.hear collector.hearer phase (.started report.kind report.number)).2 .idle
    (.finished report)).2
  totals : collector.totals.Records report after.totals

section Cycles

variable [MemorySource Source] [Listener Hearer] {Roots : Type} [RootProvider Roots]
  {roots : Roots} {report : CycleReport}

/-- A cycle with a report was not refused. -/
theorem healthy_of_collect [PromotionPolicy Policy] {kind : CycleKind}
    (ran : collector.collect kind roots = .ok (.ok report, after)) :
    collector.checkPoison = .ok () := by
  cases poison : collector.checkPoison with
  | ok _ => rfl
  | error failure =>
      cases kind with
      | minor =>
          rcases collectMinor_eq_ok ran with ⟨_, _, refused, _⟩ | ⟨healthy, _⟩
          · cases refused
          · rw [poison] at healthy
            cases healthy
      | major =>
          rcases collectMajor_eq_ok ran with ⟨_, _, refused, _⟩ | ⟨healthy, _⟩
          · cases refused
          · rw [poison] at healthy
            cases healthy

/-- A collector without poison ends its cycles with a report. -/
theorem exists_report_of_collect [PromotionPolicy Policy] {kind : CycleKind}
    {answer : Answer CycleReport} (healthy : collector.poison = none)
    (ran : collector.collect kind roots = .ok (answer, after)) : ∃ report, answer = .ok report := by
  cases kind with
  | minor =>
      obtain ⟨report, answered, _⟩ := reports_of_collectMinor healthy ran
      exact ⟨report, answered⟩
  | major =>
      obtain ⟨report, answered, _⟩ := reports_of_collectMajor healthy ran
      exact ⟨report, answered⟩

theorem exists_outcome_of_collectMinor [PromotionPolicy Policy]
    (ran : collector.collectMinor roots = .ok (.ok report, after)) :
    ∃ outcome heap next threshold,
      collector.heap.minorCycle collector.marker (collector.liveRoots roots) =
        .ok (.ok outcome, heap, next) ∧
      report = outcome.report (collector.cycle + 1) ∧
      after.heap = (heap.setThreshold threshold).2 ∧ collector.Reports report after := by
  have healthy := healthy_of_collect (show collector.collect .minor roots = _ from ran)
  obtain ⟨_, outcome, heap, next, _, _, enter, cycle, conclude, tune, check, answered⟩ :=
    collectMinor_stages healthy ran
  cases answered
  obtain ⟨_, numbered, _, _, rfl⟩ := enter_eq_ok enter
  obtain ⟨totals, _, recorded, _, rfl⟩ := conclude_eq_ok conclude
  obtain ⟨policy, threshold, changes, _, rfl⟩ := tune_eq_ok tune
  obtain ⟨_, _, rfl⟩ := checkTriggers_eq_ok check
  have records := Totals.records_of_record recorded
  exact ⟨outcome, heap, next, threshold, cycle, rfl, rfl, rfl, rfl, numbered, rfl, rfl, rfl,
    ⟨_, rfl⟩, { records with }⟩

theorem exists_outcome_of_collectMajor [PromotionPolicy Policy]
    (ran : collector.collectMajor roots = .ok (.ok report, after)) :
    ∃ outcome next,
      collector.heap.majorCycle collector.marker (collector.liveRoots roots) =
        .ok (.ok outcome, after.heap, next) ∧
      report = outcome.report (collector.cycle + 1) ∧ collector.Reports report after := by
  have healthy := healthy_of_collect (show collector.collect .major roots = _ from ran)
  obtain ⟨_, outcome, _, next, _, enter, cycle, conclude, answered, rfl⟩ :=
    collectMajor_stages healthy ran
  cases answered
  obtain ⟨_, numbered, _, _, rfl⟩ := enter_eq_ok enter
  obtain ⟨totals, _, recorded, _, rfl⟩ := conclude_eq_ok conclude
  have records := Totals.records_of_record recorded
  exact ⟨outcome, next, cycle, rfl, rfl, rfl, numbered, rfl, rfl, rfl, ⟨_, rfl⟩,
    { records with }⟩

theorem reports_of_collect [PromotionPolicy Policy] {kind : CycleKind}
    (ran : collector.collect kind roots = .ok (.ok report, after)) :
    collector.heap.Attains after.heap ∧ collector.Reports report after := by
  cases kind with
  | minor =>
      obtain ⟨_, heap, _, threshold, cycle, _, tuned, reports⟩ :=
        exists_outcome_of_collectMinor ran
      have collected : collector.heap.Attains heap := .one (.minorCycle cycle)
      rw [tuned]
      exact ⟨collected.trans (.one (.setThreshold threshold)), reports⟩
  | major =>
      obtain ⟨_, _, cycle, _, reports⟩ := exists_outcome_of_collectMajor ran
      exact ⟨.one (.majorCycle cycle), reports⟩

end Cycles

/-! ## Courses -/

variable [MemorySource Source] [PromotionPolicy Policy] [Listener Hearer] {View : Type}

/-- The cycles that a collector has run so far. Only they may change what is seen of its
listeners. -/
inductive Course (view : Hearer → View) (first : View) :
    List (CycleRun Source) → Collector Source Policy Hearer → Prop where
  | began {heap : Heap Source} {hearer : Hearer} (attainable : heap.Attainable)
      (policy : Policy) (seen : view hearer = first) :
      Course view first [] (ofHeap heap policy hearer)
  | queued {cycles : List (CycleRun Source)} {collector : Collector Source Policy Hearer}
      (earlier : Course view first cycles collector) (requests : Requests) :
      Course view first cycles { collector with requests }
  | touched {cycles : List (CycleRun Source)} {collector : Collector Source Policy Hearer}
      {heap : Heap Source} {operation : Heap.Operation}
      (earlier : Course view first cycles collector)
      (ran : collector.heap.perform operation = .ok heap) :
      Course view first cycles { collector with heap }
  | gaveUp {cycles : List (CycleRun Source)} {collector : Collector Source Policy Hearer}
      (earlier : Course view first cycles collector) (allocationFailures : Nat) :
      Course view first cycles
        { collector with totals := { collector.totals with allocationFailures } }
  | cycled {Roots : Type} [RootProvider Roots] {roots : Roots} {kind : CycleKind}
      {report : CycleReport} {cycles : List (CycleRun Source)}
      {collector after : Collector Source Policy Hearer}
      (earlier : Course view first cycles collector)
      (ran : collector.collect kind roots = .ok (.ok report, after)) :
      Course view first (cycles ++ [{
        roots := RootProvider.current roots
        before := collector.heap
        after := after.heap
        report }]) after
  | rewired {cycles : List (CycleRun Source)} {collector : Collector Source Policy Hearer}
      {hearer : Hearer} (earlier : Course view first cycles collector) (policy : Policy)
      (seen : view hearer = view collector.hearer) :
      Course view first cycles { collector with policy, hearer }

/-- Between operations the collector is idle, has not met a broken invariant, and knows the
number of all cycles and of the minor ones since the last major one. -/
structure Stands (reports : List CycleReport) (collector : Collector Source Policy Hearer) :
    Prop where
  attainable : collector.heap.Attainable
  idle : collector.phase = .idle
  healthy : collector.poison = none
  cycle : collector.cycle = reports.length
  minorsSinceMajor : collector.minorsSinceMajor = (trailingMinors reports).length

theorem Stands.collect {Roots : Type} [RootProvider Roots] {roots : Roots} {kind : CycleKind}
    {reports : List CycleReport} {report : CycleReport} (stands : collector.Stands reports)
    (ran : collector.collect kind roots = .ok (.ok report, after)) :
    after.Stands (reports ++ [report]) := by
  obtain ⟨attains, cycle⟩ := reports_of_collect ran
  refine ⟨stands.attainable.attains attains, cycle.phase, cycle.poison.trans stands.healthy,
    ?_, ?_⟩
  · rw [cycle.cycle, List.length_append, stands.cycle]
    rfl
  · rw [cycle.minorsSinceMajor, length_trailingMinors_concat, stands.minorsSinceMajor]

omit [PromotionPolicy Policy] [Listener Hearer] in
theorem Stands.touched {reports : List CycleReport} {heap : Heap Source}
    (stands : collector.Stands reports) (attains : collector.heap.Attains heap) :
    Stands reports { collector with heap } :=
  ⟨stands.attainable.attains attains, stands.idle, stands.healthy, stands.cycle,
    stands.minorsSinceMajor⟩

omit [PromotionPolicy Policy] [Listener Hearer] in
theorem Stands.queued {reports : List CycleReport} (stands : collector.Stands reports)
    (requests : Requests) : Stands reports { collector with requests } :=
  ⟨stands.attainable, stands.idle, stands.healthy, stands.cycle, stands.minorsSinceMajor⟩

namespace Course

variable {view : Hearer → View} {first : View} {cycles : List (CycleRun Source)}

theorem stands (course : Course view first cycles collector) :
    collector.Stands (cycles.map CycleRun.report) := by
  induction course with
  | began attainable _ _ => exact ⟨attainable, rfl, rfl, rfl, rfl⟩
  | queued _ requests ih => exact ih.queued requests
  | touched _ ran ih => exact ih.touched (.one (Heap.perform_eq_ok ran))
  | gaveUp _ failures ih =>
      exact ⟨ih.attainable, ih.idle, ih.healthy, ih.cycle, ih.minorsSinceMajor⟩
  | cycled _ ran ih =>
      rw [List.map_append]
      exact ih.collect ran
  | rewired _ policy _ ih =>
      exact ⟨ih.attainable, ih.idle, ih.healthy, ih.cycle, ih.minorsSinceMajor⟩

/-! ## Operations -/

theorem stays (course : Course view first cycles collector) :
    ∃ later, Course view first (cycles ++ later) collector := by
  refine ⟨[], ?_⟩
  rw [List.append_nil]
  exact course

variable {Roots : Type} [RootProvider Roots] {roots : Roots}

theorem collect {kind : CycleKind} {answer : Answer CycleReport}
    (course : Course view first cycles collector)
    (ran : collector.collect kind roots = .ok (answer, after)) : ∃ report,
    answer = .ok report ∧ Course view first (cycles ++ [{
      roots := RootProvider.current roots
      before := collector.heap
      after := after.heap
      report }]) after := by
  obtain ⟨report, rfl⟩ := exists_report_of_collect course.stands.healthy ran
  exact ⟨report, rfl, course.cycled ran⟩

theorem placed {size fieldCount : Nat} {handle : Option Handle} {heap : Heap Source}
    (course : Course view first cycles collector)
    (ran : collector.heap.tryAllocate size fieldCount = .ok (handle, heap)) :
    Course view first cycles { collector with heap } :=
  course.touched (Heap.Performs.allocate ran).perform_eq

theorem swept {report last : CycleReport} {cleared swept : Collector Source Policy Hearer}
    (course : Course view first cycles collector)
    (minor : collector.collectMinor roots = .ok (.ok report, cleared))
    (major : cleared.collectMajor roots = .ok (.ok last, swept)) :
    ∃ later, Course view first (cycles ++ later) swept := by
  have first := course.cycled (show collector.collect .minor roots = _ from minor)
  have second := first.cycled (show cleared.collect .major roots = _ from major)
  rw [List.append_assoc] at second
  exact ⟨_, second⟩

theorem climbs {size fieldCount : Nat} {kinds : List CycleKind} {answer : Answer Handle}
    (course : Course view first cycles collector)
    (climbs : collector.Climbs roots size fieldCount kinds answer after) :
    ∃ later, Course view first (cycles ++ later) after := by
  cases climbs with
  | atOnce placed => exact (course.placed placed).stays
  | afterMinor _ minor placed =>
      have cleared := course.cycled (show collector.collect .minor roots = _ from minor)
      exact ⟨_, cleared.placed placed⟩
  | afterMajor _ minor _ major placed =>
      obtain ⟨later, swept⟩ := course.swept minor major
      exact ⟨later, swept.placed placed⟩
  | gaveUp _ minor _ major _ gaveUp =>
      obtain ⟨later, swept⟩ := course.swept minor major
      obtain ⟨_, _, _, _, _, _, _, rfl⟩ := giveUp_eq_ok gaveUp
      exact ⟨later, swept.gaveUp _⟩

theorem serve {remaining : Nat} {reports : List CycleReport}
    {answer : Answer (List CycleReport)} (course : Course view first cycles collector)
    (ran : Collector.serve roots remaining reports collector = .ok (answer, after)) :
    ∃ later, Course view first (cycles ++ later) after := by
  induction remaining generalizing reports collector cycles with
  | zero => cases ran
  | succ remaining ih =>
      unfold Collector.serve at ran
      rcases taken : collector.requests.take with ⟨_ | kind, requests⟩
      · simp only [taken, Except.ok.injEq, Prod.mk.injEq] at ran
        obtain ⟨_, rfl⟩ := ran
        exact course.stays
      · simp only [taken, Checked.bind_eq_ok_iff] at ran
        obtain ⟨⟨collected, middle⟩, cycle, ran⟩ := ran
        obtain ⟨report, rfl, next⟩ := (course.queued requests).collect cycle
        obtain ⟨later, followed⟩ := ih next ran
        rw [List.append_assoc] at followed
        exact ⟨_, followed⟩

/-- Operations continue a course. -/
theorem perform {operation : Operation Roots} (course : Course view first cycles collector)
    (ran : collector.perform operation = .ok after) :
    ∃ later, Course view first (cycles ++ later) after := by
  cases operation with
  | allocate roots size fieldCount =>
      simp only [Collector.perform, Checked.bind_eq_ok_iff, Checked.pure_eq_ok_iff] at ran
      obtain ⟨⟨_, _⟩, allocated, rfl⟩ := ran
      obtain ⟨_, climbs⟩ := climbs_of_allocate course.stands.healthy allocated
      exact course.climbs climbs
  | store holder index value =>
      simp only [Collector.perform, store, Checked.bind_eq_ok_iff, Checked.pure_eq_ok_iff] at ran
      obtain ⟨⟨_, _⟩, ⟨⟨_, _⟩, stored, same⟩, rfl⟩ := ran
      cases same
      exact (course.touched (Heap.Performs.store stored).perform_eq).stays
  | load holder index =>
      simp only [Collector.perform, Checked.pure_eq_ok_iff] at ran
      exact ran ▸ course.stays
  | request kind =>
      simp only [Collector.perform, Checked.bind_eq_ok_iff, Checked.pure_eq_ok_iff] at ran
      obtain ⟨⟨_, _⟩, requested, rfl⟩ := ran
      obtain ⟨requests, rfl⟩ := request_eq_ok requested
      exact (course.queued requests).stays
  | runPending roots =>
      simp only [Collector.perform, Checked.bind_eq_ok_iff, Checked.pure_eq_ok_iff] at ran
      obtain ⟨⟨_, _⟩, served, rfl⟩ := ran
      simp only [runPending, checkPoison_eq_ok_iff.mpr course.stands.healthy] at served
      exact course.serve served
  | collect kind roots =>
      simp only [Collector.perform, Checked.bind_eq_ok_iff, Checked.pure_eq_ok_iff] at ran
      obtain ⟨⟨_, _⟩, collected, rfl⟩ := ran
      obtain ⟨_, _, next⟩ := course.collect collected
      exact ⟨_, next⟩

theorem performAll {operations : List (Operation Roots)}
    (course : Course view first cycles collector)
    (ran : collector.performAll operations = .ok after) :
    ∃ later, Course view first (cycles ++ later) after := by
  refine Checked.foldlM_induction
    (fun _ current => ∃ later, Course view first (cycles ++ later) current) ran course.stays
    fun _ operation _ current next _ ⟨earlier, holds⟩ stepped => ?_
  obtain ⟨later, continued⟩ := holds.perform stepped
  rw [List.append_assoc] at continued
  exact ⟨_, continued⟩

end Course

/-- A collector that a program can have is in the course of its cycles. -/
theorem Reachable.exists_course {collector : Collector WindowedMemory Policy Hearer}
    (reachable : collector.Reachable) :
    ∃ cycles, Course (fun _ : Hearer => ()) () cycles collector := by
  induction reachable with
  | @began settings budget heap created policy hearer =>
      exact ⟨[], .began ⟨settings, _, heap, [], created, rfl⟩ policy rfl⟩
  | performed _ ran ih =>
      obtain ⟨_, course⟩ := ih
      obtain ⟨_, continued⟩ := course.perform ran
      exact ⟨_, continued⟩
  | touched _ ran ih =>
      obtain ⟨cycles, course⟩ := ih
      exact ⟨cycles, course.touched ran⟩
  | rewired _ policy hearer ih =>
      obtain ⟨cycles, course⟩ := ih
      exact ⟨cycles, course.rewired policy rfl⟩

/-- Operations that pass a test are the course of a new collector. -/
theorem course_of_leadsTo {Roots : Type} [RootProvider Roots] {settings : Settings}
    {budget : Option Nat} {policy : Policy} {hearer : Hearer}
    {operations : List (Operation Roots)}
    {test : Collector WindowedMemory Policy Hearer → Bool}
    (passes : leadsTo settings budget policy hearer operations test = true)
    (view : Hearer → View) :
    ∃ (cycles : List (CycleRun WindowedMemory))
      (collector : Collector WindowedMemory Policy Hearer),
      Course view (view hearer) cycles collector ∧ test collector = true := by
  unfold leadsTo at passes
  split at passes
  · rename_i heap created
    obtain ⟨collector, performed, tested⟩ := Checked.eq_ok_of_any passes
    have attainable : heap.Attainable := ⟨settings, _, heap, [], created, rfl⟩
    have begun : Course view (view hearer) [] (ofHeap heap policy hearer) :=
      .began attainable policy rfl
    obtain ⟨cycles, course⟩ := begun.performAll performed
    exact ⟨cycles, collector, course, tested⟩
  · cases passes

end Collector

end Tenure
