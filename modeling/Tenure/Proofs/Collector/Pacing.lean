import Mathlib.Data.List.Infix
import Tenure.Proofs.Collector.Triggers
import Tenure.Proofs.Heap.RootSets

/-!
# Intervals between major cycles

A collector with an interval asks for a major cycle as soon as that many minor ones have
followed each other. If its requests are served before another minor cycle runs, then no
more of them follow each other in its log.
-/

set_option autoImplicit false

namespace Tenure

/-! ## Stretches of minor cycles -/

/-- No more than so many minor cycles follow each other. -/
def Spaced (interval : Nat) (reports : List CycleReport) : Prop :=
  ∀ block, block <:+: reports → (∀ report ∈ block, report.kind = .minor) →
    block.length ≤ interval

section Spaced

variable {interval : Nat} {reports block : List CycleReport} {report : CycleReport}

theorem length_le_trailingMinors (ends : block <:+ reports)
    (minors : ∀ report ∈ block, report.kind = .minor) :
    block.length ≤ (trailingMinors reports).length := by
  induction reports using List.reverseRecOn generalizing block with
  | nil =>
      rw [List.suffix_nil.mp ends]
      exact Nat.zero_le _
  | append_singleton earlier last ih =>
      rcases List.suffix_concat_iff.mp ends with rfl | ⟨rest, rfl, shorter⟩
      · exact Nat.zero_le _
      · have minor := minors last (List.mem_append_right _ (List.mem_singleton_self last))
        rw [length_trailingMinors_concat, if_pos minor, List.length_append]
        exact Nat.succ_le_succ
          (ih shorter fun report member => minors report (List.mem_append_left _ member))

theorem Spaced.trailing_le (spaced : Spaced interval reports) :
    (trailingMinors reports).length ≤ interval := by
  refine spaced _ (List.rtakeWhile_suffix _ _).isInfix fun report member => ?_
  simpa using List.mem_rtakeWhile_imp member

theorem Spaced.concat (spaced : Spaced interval reports)
    (trailing : (trailingMinors (reports ++ [report])).length ≤ interval) :
    Spaced interval (reports ++ [report]) := by
  intro block inside minors
  rcases List.infix_concat_iff.mp inside with ends | earlier
  · exact (length_le_trailingMinors ends minors).trans trailing
  · exact spaced block earlier minors

end Spaced

namespace Collector

variable {Source Policy : Type} [MemorySource Source] [PromotionPolicy Policy]
  {collector after : Collector Source Policy EventLog} {interval : Nat}

omit [MemorySource Source] [PromotionPolicy Policy] in
theorem Reports.reports_eq {report : CycleReport} (reported : collector.Reports report after) :
    after.hearer.reports = collector.hearer.reports ++ [report] := by
  obtain ⟨phase, hearer⟩ := reported.hearer
  rw [hearer]
  simp [Listener.hear, EventLog.record, EventLog.reports, List.filterMap_cons, Event.report?]

/-- A collector keeps to its interval: as many minor cycles as it allows have asked for a
major one, and a minor cycle is not asked for then. -/
structure Paces (interval : Nat) (collector : Collector Source Policy EventLog) : Prop where
  stands : collector.Stands collector.hearer.reports
  interval_eq : collector.heap.settings.majorCycleInterval.toNat = interval
  spaced : Spaced interval collector.hearer.reports
  due : collector.minorsSinceMajor = interval → collector.requests.major = true
  early : collector.requests.minor = true → collector.minorsSinceMajor < interval

/-- No request waits, so another minor cycle may run. -/
structure Rested (interval : Nat) (collector : Collector Source Policy EventLog) : Prop where
  paces : collector.Paces interval
  minor : collector.requests.minor = false
  major : collector.requests.major = false

omit [PromotionPolicy Policy] in
theorem Rested.early (rested : collector.Rested interval) :
    collector.minorsSinceMajor < interval := by
  have trailing := rested.paces.spaced.trailing_le
  rw [← rested.paces.stands.minorsSinceMajor] at trailing
  refine Nat.lt_of_le_of_ne trailing fun reached => ?_
  have asked := rested.paces.due reached
  rw [rested.major] at asked
  cases asked

omit [PromotionPolicy Policy] in
theorem Rested.enforced (rested : collector.Rested interval) : 0 < interval :=
  Nat.zero_lt_of_lt rested.early

omit [PromotionPolicy Policy] in
/-- Whatever is asked for then keeps the pace. -/
theorem Rested.queued (rested : collector.Rested interval) (requests : Requests) :
    Paces interval { collector with requests } where
  stands := rested.paces.stands.queued requests
  interval_eq := rested.paces.interval_eq
  spaced := rested.paces.spaced
  due := fun reached => absurd reached rested.early.ne
  early := fun _ => rested.early

namespace Paces

omit [PromotionPolicy Policy] in
theorem touched {heap : Heap Source} (paces : collector.Paces interval)
    (attains : collector.heap.Attains heap) : Paces interval { collector with heap } where
  stands := paces.stands.touched attains
  interval_eq := by
    rw [paces.stands.attainable.sound.settings_of_attains attains]
    exact paces.interval_eq
  spaced := paces.spaced
  due := paces.due
  early := paces.early

variable {Roots : Type} [RootProvider Roots] {roots : Roots} {report : CycleReport}

theorem interval_eq_of_collect {kind : CycleKind} (paces : collector.Paces interval)
    (ran : collector.collect kind roots = .ok (.ok report, after)) :
    after.heap.settings.majorCycleInterval.toNat = interval := by
  have attains := (reports_of_collect ran).1
  rw [paces.stands.attainable.sound.settings_of_attains attains]
  exact paces.interval_eq

theorem collected {kind : CycleKind} (paces : collector.Paces interval)
    (ran : collector.collect kind roots = .ok (.ok report, after))
    (within : after.minorsSinceMajor ≤ interval)
    (due : after.minorsSinceMajor = interval → after.requests.major = true)
    (early : after.requests.minor = true → after.minorsSinceMajor < interval) :
    after.Paces interval := by
  have reports := (reports_of_collect ran).2.reports_eq
  have stands := paces.stands.collect ran
  rw [stands.minorsSinceMajor] at within
  rw [← reports] at stands
  refine ⟨stands, paces.interval_eq_of_collect ran, ?_, due, early⟩
  rw [reports]
  exact paces.spaced.concat within

/-- The minor cycle that makes up the interval asks for a major one. -/
theorem minor (paces : collector.Paces interval) (early : collector.minorsSinceMajor < interval)
    (ran : collector.collectMinor roots = .ok (.ok report, after)) :
    after.Paces interval := by
  have cycle : collector.collect .minor roots = .ok (.ok report, after) := ran
  have interval_eq := paces.interval_eq_of_collect cycle
  obtain ⟨_, served, major⟩ := requests_of_collectMinor (silent_eventLog.quiet _) ran
  obtain ⟨_, _, _, _, _, rfl, _, reported⟩ := exists_outcome_of_collectMinor ran
  have counted : after.minorsSinceMajor = collector.minorsSinceMajor + 1 :=
    reported.minorsSinceMajor
  refine paces.collected cycle (by omega) (fun reached => ?_) fun asked => ?_
  · exact major.mpr (.inr (.due (by omega) (by omega)))
  · rw [served] at asked
    cases asked

theorem major (paces : collector.Paces interval) (enforced : 0 < interval)
    (ran : collector.collectMajor roots = .ok (.ok report, after)) : after.Paces interval := by
  have cycle : collector.collect .major roots = .ok (.ok report, after) := ran
  obtain ⟨_, _, _, rfl, reported⟩ := exists_outcome_of_collectMajor ran
  have counted : after.minorsSinceMajor = 0 := reported.minorsSinceMajor
  exact paces.collected cycle (by omega) (fun reached => by omega) fun _ => by omega

omit [PromotionPolicy Policy] in
theorem placed {size fieldCount : Nat} {handle : Option Handle} {heap : Heap Source}
    (paces : collector.Paces interval)
    (ran : collector.heap.tryAllocate size fieldCount = .ok (handle, heap)) :
    Paces interval { collector with heap } :=
  paces.touched (.one (.allocate ran))

end Paces

variable {Roots : Type} [RootProvider Roots] {roots : Roots}

/-- An allocation that finds no request waiting keeps the pace. -/
theorem Rested.allocate {size fieldCount : Nat} {handle : Handle}
    (rested : collector.Rested interval)
    (ran : collector.allocate roots size fieldCount = .ok (.ok handle, after)) :
    after.Paces interval := by
  have early := rested.early
  obtain ⟨_, climbs⟩ := climbs_of_allocate rested.paces.stands.healthy ran
  cases climbs with
  | atOnce fits => exact rested.paces.placed fits
  | afterMinor _ minor fits => exact (rested.paces.minor early minor).placed fits
  | afterMajor _ minor _ major fits =>
      have cleared := rested.paces.minor early minor
      exact (cleared.major (by omega) major).placed fits

/-- After a service no request waits. -/
theorem Paces.runPending {answer : Answer (List CycleReport)} (paces : collector.Paces interval)
    (enforced : 0 < interval) (ran : collector.runPending roots = .ok (answer, after)) :
    after.Rested interval := by
  obtain ⟨_, _, turns, minor, major⟩ :=
    takesTurns_of_runPending (silent_eventLog.quiet _) paces.stands.healthy ran
  refine ⟨?_, minor, major⟩
  cases turns with
  | none _ _ => exact paces
  | major _ _ swept => exact paces.major enforced swept
  | minor asked cleared _ _ => exact paces.minor (paces.early asked) cleared
  | both asked cleared _ swept =>
      exact (paces.minor (paces.early asked) cleared).major enforced swept

end Collector

end Tenure
