import Tenure.Proofs.Collector.Course
import Tenure.Proofs.Collector.Tallies

/-!
# Triggers and turns

A minor cycle asks for a major one if one of its triggers fires. As long as the listeners
ask for nothing, waiting requests are served in two turns at most: a minor cycle if one was
asked for, then a major one if one was asked for or if the minor one has just asked for it.
-/

set_option autoImplicit false

namespace Tenure.Collector

variable {Source Policy Hearer : Type} {collector after : Collector Source Policy Hearer}

/-! ## Requests after a cycle -/

section Cycles

variable [MemorySource Source] [PromotionPolicy Policy] [Listener Hearer] {Roots : Type}
  [RootProvider Roots] {roots : Roots} {report : CycleReport}

/-- A minor cycle calls for a major one: a promotion failed, the old space is as full as the
settings allow, or there have been as many minor cycles in a row as their interval. -/
inductive Fires (roots : Roots) (minors : Nat) (collector after : Collector Source Policy Hearer) :
    Prop where
  | promotionFailed {outcome : MinorOutcome} {heap : Heap Source} {next : Marker}
      (cycle : collector.heap.minorCycle collector.marker (collector.liveRoots roots) =
        .ok (.ok outcome, heap, next))
      (failed : outcome.promotionFailed = true) : Fires roots minors collector after
  | oldFull (full : after.heap.settings.oldGrowthTrigger ≤ after.heap.old.occupancy) :
      Fires roots minors collector after
  | due (enforced : 0 < after.heap.settings.majorCycleInterval.toNat)
      (due : after.heap.settings.majorCycleInterval.toNat ≤ minors) :
      Fires roots minors collector after

omit [PromotionPolicy Policy] [Listener Hearer] in
theorem fires_iff {minors : Nat} {outcome : MinorOutcome} {heap : Heap Source} {next : Marker}
    (cycle : collector.heap.minorCycle collector.marker (collector.liveRoots roots) =
      .ok (.ok outcome, heap, next)) :
    Fires roots minors collector after ↔ outcome.promotionFailed = true ∨
      after.heap.settings.oldGrowthTrigger ≤ after.heap.old.occupancy ∨
      0 < after.heap.settings.majorCycleInterval.toNat ∧
        after.heap.settings.majorCycleInterval.toNat ≤ minors := by
  constructor
  · intro fires
    cases fires with
    | promotionFailed other failed =>
        rw [cycle] at other
        cases other
        exact .inl failed
    | oldFull full => exact .inr (.inl full)
    | due enforced due => exact .inr (.inr ⟨enforced, due⟩)
  · rintro (failed | full | ⟨enforced, due⟩)
    · exact .promotionFailed cycle failed
    · exact .oldFull full
    · exact .due enforced due

omit [MemorySource Source] [PromotionPolicy Policy] [Listener Hearer] in
theorem requests_of_checkTriggers {promotionFailed : Bool}
    (ran : collector.checkTriggers promotionFailed = .ok after) :
    after.hearer = collector.hearer ∧ after.requests.minor = collector.requests.minor ∧
      (after.requests.major = true ↔ collector.requests.major = true ∨
        promotionFailed = true ∨
        after.heap.settings.oldGrowthTrigger ≤ after.heap.old.occupancy ∨
        0 < after.heap.settings.majorCycleInterval.toNat ∧
          after.heap.settings.majorCycleInterval.toNat ≤ collector.minorsSinceMajor) := by
  obtain ⟨requests, ⟨minor, major, _⟩, rfl⟩ := checkTriggers_eq_ok ran
  refine ⟨rfl, minor, ?_⟩
  rw [major]
  simp [reasons]

/-- What waits after a minor cycle whose listeners ask for nothing. -/
theorem requests_of_collectMinor (quiet : Quiet collector.hearer)
    (ran : collector.collectMinor roots = .ok (.ok report, after)) :
    Quiet after.hearer ∧ after.requests.minor = false ∧
      (after.requests.major = true ↔ collector.requests.major = true ∨
        Fires roots (collector.minorsSinceMajor + 1) collector after) := by
  have healthy := healthy_of_collect (show collector.collect .minor roots = _ from ran)
  obtain ⟨_, outcome, heap, next, _, _, enter, cycle, conclude, tune, check, _⟩ :=
    collectMinor_stages healthy ran
  obtain ⟨hearer, minor, major⟩ := requests_of_checkTriggers check
  obtain ⟨_, quiet, rfl⟩ := enter_of_quiet quiet enter
  obtain ⟨_, _, quiet, _, rfl⟩ := conclude_of_quiet quiet conclude
  obtain ⟨_, _, _, _, rfl⟩ := tune_eq_ok tune
  have cycled : collector.heap.minorCycle collector.marker (collector.liveRoots roots) =
    .ok (.ok outcome, heap, next) := cycle
  refine ⟨hearer ▸ quiet, minor, ?_⟩
  rw [fires_iff cycled]
  exact major

theorem requests_of_collectMajor (quiet : Quiet collector.hearer)
    (ran : collector.collectMajor roots = .ok (.ok report, after)) :
    Quiet after.hearer ∧ after.requests = collector.requests.clear .major := by
  have healthy := healthy_of_collect (show collector.collect .major roots = _ from ran)
  obtain ⟨_, outcome, heap, _, _, enter, cycle, conclude, _, rfl⟩ :=
    collectMajor_stages healthy ran
  obtain ⟨_, quiet, rfl⟩ := enter_of_quiet quiet enter
  obtain ⟨_, _, quiet, _, rfl⟩ := conclude_of_quiet quiet conclude
  exact ⟨quiet, rfl⟩

/-! ## Turns -/

/-- Runs a cycle if one of its kind was asked for, and adds its report to earlier ones. -/
def collectIfAsked (collector : Collector Source Policy Hearer) (kind : CycleKind)
    (roots : Roots) (reports : List CycleReport) :
    Checked (Answer (List CycleReport) × Collector Source Policy Hearer) := do
  if collector.requests.contains kind then
    let (answer, collector) ← collector.collect kind roots
    return (answer.map fun report => reports ++ [report], collector)
  else return (.ok reports, collector)

/-- Runs a minor cycle if one was asked for, and then a major one if one was asked for. -/
def serveInTurn (collector : Collector Source Policy Hearer) (roots : Roots) :
    Checked (Answer (List CycleReport) × Collector Source Policy Hearer) := do
  match ← collector.collectIfAsked .minor roots [] with
  | (.error failure, collector) => return (.error failure, collector)
  | (.ok reports, collector) => collector.collectIfAsked .major roots reports

/-- A cycle takes away the request of its own kind anyway. -/
theorem collect_cleared (healthy : collector.checkPoison = .ok ()) (kind : CycleKind)
    (roots : Roots) :
    collect { collector with requests := collector.requests.clear kind } kind roots =
      collector.collect kind roots := by
  have same : checkPoison { collector with requests := collector.requests.clear kind } = .ok () :=
    healthy
  cases kind with
  | minor =>
      simp only [collect, collectMinor, same, healthy]
      rfl
  | major =>
      simp only [collect, collectMajor, same, healthy]
      rfl

variable {remaining : Nat} {reports : List CycleReport}

theorem serve_of_unasked (minor : collector.requests.minor = false)
    (major : collector.requests.major = false) :
    serve roots (remaining + 1) reports collector = .ok (.ok reports.reverse, collector) := by
  simp [serve, Requests.take, minor, major]

/-- The next request is served, and then the others. -/
theorem serve_of_asked {kind : CycleKind} (healthy : collector.checkPoison = .ok ())
    (next : collector.requests.take = (some kind, collector.requests.clear kind)) :
    serve roots (remaining + 1) reports collector = (do
      match ← collector.collect kind roots with
      | (.error failure, collector) => return (.error failure, collector)
      | (.ok report, collector) => serve roots remaining (report :: reports) collector) := by
  rw [serve, next]
  exact congrArg (fun answered => answered >>= _) (collect_cleared healthy kind roots)

theorem collectIfAsked_of_unasked {kind : CycleKind}
    (unasked : collector.requests.contains kind = false) :
    collector.collectIfAsked kind roots reports = .ok (.ok reports, collector) := by
  unfold collectIfAsked
  rw [unasked]
  rfl

theorem collectIfAsked_of_asked {kind : CycleKind}
    (asked : collector.requests.contains kind = true)
    (ran : collector.collect kind roots = .ok (.ok report, after)) :
    collector.collectIfAsked kind roots reports = .ok (.ok (reports ++ [report]), after) := by
  unfold collectIfAsked
  rw [if_pos asked]
  exact Checked.bind_of_eq_ok ran rfl

/-- Without a minor request one turn is left. The loop does not give up before its last look
at the requests, since it has more turns than there are numbers for cycles. -/
theorem serve_eq_major (quiet : Quiet collector.hearer) (healthy : collector.checkPoison = .ok ())
    (minor : collector.requests.minor = false) (enough : Word.limit ≤ collector.cycle + remaining) :
    serve roots (remaining + 1) reports collector =
      collector.collectIfAsked .major roots reports.reverse := by
  cases major : collector.requests.major with
  | false =>
      have unserved : collector.collectIfAsked .major roots reports.reverse =
        .ok (.ok reports.reverse, collector) := collectIfAsked_of_unasked major
      rw [serve_of_unasked minor major, unserved]
  | true =>
      have next : collector.requests.take = (some .major, collector.requests.clear .major) := by
        simp [Requests.take, Requests.clear, minor, major]
      rw [serve_of_asked healthy next]
      simp only [collectIfAsked, Requests.contains, major, ↓reduceIte]
      refine Checked.bind_congr fun ended cycle => ?_
      obtain ⟨answer, after⟩ := ended
      cases answer with
      | error failure => rfl
      | ok report =>
          obtain ⟨_, reported⟩ := reports_of_collect cycle
          obtain ⟨_, asked⟩ := requests_of_collectMajor quiet cycle
          have numbered := reported.cycle_lt
          rw [reported.cycle] at numbered
          -- The number of this cycle is below the limit, so a turn remains after it.
          obtain ⟨left, rfl⟩ := Nat.exists_eq_add_of_lt (show 0 < remaining by omega)
          dsimp only
          rw [serve_of_unasked (by rw [asked]; exact minor) (by rw [asked]; rfl)]
          rw [List.reverse_cons]
          rfl

/-- The loop that serves requests takes two turns at most. -/
theorem runPending_eq_serveInTurn (quiet : Quiet collector.hearer)
    (healthy : collector.checkPoison = .ok ()) (roots : Roots) :
    collector.runPending roots = collector.serveInTurn roots := by
  simp only [runPending, healthy, serveInTurn]
  cases minor : collector.requests.minor with
  | false =>
      rw [serve_eq_major quiet healthy minor (by omega)]
      have unserved : collector.collectIfAsked .minor roots [] = .ok (.ok [], collector) :=
        collectIfAsked_of_unasked minor
      rw [unserved]
      rfl
  | true =>
      have next : collector.requests.take = (some .minor, collector.requests.clear .minor) := by
        simp [Requests.take, Requests.clear, minor]
      rw [serve_of_asked healthy next, collectIfAsked]
      simp only [Requests.contains, minor, ↓reduceIte, bind_assoc, pure_bind]
      refine Checked.bind_congr fun ended cycle => ?_
      obtain ⟨answer, after⟩ := ended
      cases answer with
      | error failure => rfl
      | ok report =>
          obtain ⟨_, reported⟩ := reports_of_collect cycle
          obtain ⟨stillQuiet, served, _⟩ := requests_of_collectMinor quiet cycle
          have numbered := reported.cycle_lt
          have stillHealthy : after.checkPoison = .ok () :=
            checkPoison_eq_ok_iff.mpr (reported.poison.trans (checkPoison_eq_ok_iff.mp healthy))
          rw [reported.cycle] at numbered
          obtain ⟨left, rest⟩ := Nat.exists_eq_add_of_lt
            (show 0 < Word.limit - collector.cycle by omega)
          have enough : Word.limit ≤ after.cycle + left := by
            rw [reported.cycle]
            omega
          dsimp only
          rw [rest, Nat.zero_add, serve_eq_major stillQuiet stillHealthy served enough]
          rfl

theorem collectIfAsked_eq_ok {kind : CycleKind} {answer : Answer (List CycleReport)}
    (healthy : collector.poison = none)
    (ran : collector.collectIfAsked kind roots reports = .ok (answer, after)) :
    (collector.requests.contains kind = false ∧ answer = .ok reports ∧ after = collector) ∨
    (collector.requests.contains kind = true ∧ ∃ report,
      collector.collect kind roots = .ok (.ok report, after) ∧
      answer = .ok (reports ++ [report])) := by
  unfold collectIfAsked at ran
  split at ran
  · rename_i asked
    simp only [Checked.bind_eq_ok_iff, Checked.pure_eq_ok_iff, Prod.mk.injEq] at ran
    obtain ⟨⟨collected, _⟩, cycle, rfl, rfl⟩ := ran
    obtain ⟨report, rfl⟩ := exists_report_of_collect healthy cycle
    exact .inr ⟨asked, report, cycle, rfl⟩
  · rename_i unasked
    simp only [Checked.pure_eq_ok_iff, Prod.mk.injEq] at ran
    exact .inl ⟨Bool.eq_false_iff.mpr unasked, ran.1.symm, ran.2.symm⟩

/-- The turns of a service, when a minor cycle is the one with this number since the last
major cycle. -/
inductive TakesTurns (roots : Roots) (minors : Nat)
    (collector : Collector Source Policy Hearer) :
    List CycleReport → Collector Source Policy Hearer → Prop where
  | none (minor : collector.requests.minor = false) (major : collector.requests.major = false) :
      TakesTurns roots minors collector [] collector
  | major {report : CycleReport} {after : Collector Source Policy Hearer}
      (minor : collector.requests.minor = false) (major : collector.requests.major = true)
      (ran : collector.collectMajor roots = .ok (.ok report, after)) :
      TakesTurns roots minors collector [report] after
  | minor {report : CycleReport} {after : Collector Source Policy Hearer}
      (minor : collector.requests.minor = true)
      (ran : collector.collectMinor roots = .ok (.ok report, after))
      (major : collector.requests.major = false) (calm : ¬ Fires roots minors collector after) :
      TakesTurns roots minors collector [report] after
  | both {report last : CycleReport} {cleared after : Collector Source Policy Hearer}
      (minor : collector.requests.minor = true)
      (ran : collector.collectMinor roots = .ok (.ok report, cleared))
      (major : collector.requests.major = true ∨ Fires roots minors collector cleared)
      (swept : cleared.collectMajor roots = .ok (.ok last, after)) :
      TakesTurns roots minors collector [report, last] after

theorem takesTurns_of_runPending (quiet : Quiet collector.hearer)
    (healthy : collector.poison = none) {answer : Answer (List CycleReport)}
    (ran : collector.runPending roots = .ok (answer, after)) : ∃ reports,
    answer = .ok reports ∧
      collector.TakesTurns roots (collector.minorsSinceMajor + 1) reports after ∧
      after.requests.minor = false ∧ after.requests.major = false := by
  rw [runPending_eq_serveInTurn quiet (checkPoison_eq_ok_iff.mpr healthy)] at ran
  obtain ⟨⟨first, middle⟩, minor, rest⟩ := Checked.bind_eq_ok_iff.mp ran
  rcases collectIfAsked_eq_ok healthy minor with
    ⟨unasked, rfl, rfl⟩ | ⟨asked, report, cleared, rfl⟩
  · rcases collectIfAsked_eq_ok healthy rest with ⟨calm, rfl, rfl⟩ | ⟨asked, last, swept, rfl⟩
    · exact ⟨[], rfl, .none unasked calm, unasked, calm⟩
    · obtain ⟨_, served⟩ := requests_of_collectMajor quiet swept
      exact ⟨[last], rfl, .major unasked asked swept, served ▸ unasked, served ▸ rfl⟩
  · obtain ⟨stillQuiet, served, major⟩ := requests_of_collectMinor quiet cleared
    have stillHealthy := (reports_of_collect cleared).2.poison.trans healthy
    rcases collectIfAsked_eq_ok stillHealthy rest with ⟨calm, rfl, rfl⟩ | ⟨due, last, swept, rfl⟩
    · have unfired := not_or.mp (major.not.mp (Bool.eq_false_iff.mp calm))
      exact ⟨[report], rfl, .minor asked cleared (Bool.eq_false_iff.mpr unfired.1) unfired.2,
        served, calm⟩
    · obtain ⟨_, both⟩ := requests_of_collectMajor stillQuiet swept
      exact ⟨[report, last], rfl, .both asked cleared (major.mp due) swept,
        both ▸ served, both ▸ rfl⟩

/-! ## Courses -/

/-- What a collector makes of its triggers and of its requests, if a minor cycle would be the
one with this number since the last major cycle. -/
structure ServesRequests (roots : Roots) (minors : Nat)
    (collector : Collector Source Policy Hearer) : Prop where
  triggered : ∀ answer after, collector.collectMinor roots = .ok (answer, after) →
    (∃ report, answer = .ok report) ∧
      (after.requests.major = true ↔
        collector.requests.major = true ∨ Fires roots minors collector after)
  ends : collector.runPending roots = collector.serveInTurn roots
  served : ∀ answer after, collector.runPending roots = .ok (answer, after) →
    ∃ reports, answer = .ok reports ∧ collector.TakesTurns roots minors reports after ∧
      after.requests.minor = false ∧ after.requests.major = false

theorem Stands.servesRequests {reports : List CycleReport} (stands : collector.Stands reports)
    (quiet : Quiet collector.hearer) (roots : Roots) :
    collector.ServesRequests roots ((trailingMinors reports).length + 1) := by
  rw [← stands.minorsSinceMajor]
  constructor
  case triggered =>
    intro answer after ran
    obtain ⟨report, rfl⟩ :=
      exists_report_of_collect stands.healthy (show collector.collect .minor roots = _ from ran)
    exact ⟨⟨report, rfl⟩, (requests_of_collectMinor quiet ran).2.2⟩
  case ends =>
    exact runPending_eq_serveInTurn quiet (checkPoison_eq_ok_iff.mpr stands.healthy) roots
  case served =>
    exact fun answer after ran => takesTurns_of_runPending quiet stands.healthy ran

/-- A collector with quiet listeners serves its requests in two turns at most, whatever it
has been through. -/
theorem requests_served_in_turn {View : Type} {view : Hearer → View} {first : View}
    {cycles : List (CycleRun Source)} (course : Course view first cycles collector)
    (quiet : Quiet collector.hearer) (roots : Roots) :
    collector.ServesRequests roots
      ((trailingMinors (cycles.map CycleRun.report)).length + 1) :=
  course.stands.servesRequests quiet roots

/-- So does every collector that a program can have. The minor cycles since its last major one
are those at the end of its course. -/
theorem Reachable.servesRequests {collector : Collector WindowedMemory Policy Hearer}
    (reachable : collector.Reachable) (quiet : Quiet collector.hearer) (roots : Roots) :
    ∃ cycles, Course (fun _ : Hearer => ()) () cycles collector ∧
      collector.ServesRequests roots
        ((trailingMinors (cycles.map CycleRun.report)).length + 1) := by
  obtain ⟨cycles, course⟩ := reachable.exists_course
  exact ⟨cycles, course, course.stands.servesRequests quiet roots⟩

end Cycles

/-! ## A trigger -/

/-- Every minor cycle is followed by a major one. -/
def enforcingSettings : Settings := { Heap.smallSettings with majorCycleInterval := 1 }

theorem requests_served_in_turn_when_due :
    ∃ (cycles : List (CycleRun WindowedMemory))
      (collector after : Collector WindowedMemory FixedPromotion Unit)
      (reports : List CycleReport),
      collector.Reachable ∧ Course (fun _ : Unit => ()) () cycles collector ∧
      Quiet collector.hearer ∧
      collector.requests.major = false ∧
      collector.runPending [Heap.firstHandle] = .ok (.ok reports, after) ∧
      reports.map CycleReport.kind = [.minor, .major] ∧
      collector.TakesTurns [Heap.firstHandle]
        ((trailingMinors (cycles.map CycleRun.report)).length + 1) reports after := by
  obtain ⟨collector, reachable, facts⟩ := reachable_of_leadsTo
    (show leadsTo enforcingSettings none FixedPromotion.mk () [
        Operation.allocate ([] : List Handle) 16 1, .request .minor]
      (fun collector => decide (collector.requests.major = false) &&
        (collector.runPending [Heap.firstHandle]).toOption.any fun run =>
          run.1.toOption.any fun reports =>
            decide (reports.map CycleReport.kind = [.minor, .major])) = true
      by decide +kernel)
  rw [Bool.and_eq_true, decide_eq_true_eq] at facts
  obtain ⟨unasked, runs⟩ := facts
  obtain ⟨cycles, course⟩ := reachable.exists_course
  obtain ⟨⟨answer, after⟩, ran, kinds⟩ := Checked.eq_ok_of_any runs
  have quiet := silent_unit.quiet collector.hearer
  obtain ⟨reports, rfl, turns, _⟩ :=
    (requests_served_in_turn course quiet [Heap.firstHandle]).served answer after ran
  exact ⟨cycles, collector, after, reports, reachable, course, quiet, unasked, ran,
    of_decide_eq_true kinds, turns⟩

end Tenure.Collector
