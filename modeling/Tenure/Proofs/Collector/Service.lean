import Tenure.Proofs.Collector.Triggers

/-!
# Serving requests

A collector between operations serves its requests without a failure, and keeps what its
roots lead to. If the listeners ask for nothing, that takes one minor cycle at most and one
major cycle at most, and no request waits then.
-/

set_option autoImplicit false

namespace Tenure.Collector

variable {Policy Hearer Roots : Type} [PromotionPolicy Policy] [Listener Hearer]
  [RootProvider Roots] {collector after : Collector WindowedMemory Policy Hearer} {roots : Roots}

/-! ## Cycles of either kind -/

theorem cycled_of_collect {kind : CycleKind} {answer : Answer CycleReport}
    (rests : collector.Rests) (ran : collector.collect kind roots = .ok (answer, after)) :
    ∃ report, answer = .ok report ∧ collector.Cycled roots [kind] after := by
  cases kind with
  | minor =>
      obtain ⟨report, rfl, _⟩ := reports_of_collectMinor rests.healthy ran
      exact ⟨report, rfl, (cycled_of_collectMinor rests ran).1⟩
  | major =>
      obtain ⟨report, rfl, _⟩ := reports_of_collectMajor rests.healthy ran
      exact ⟨report, rfl, (cycled_of_collectMajor rests ran).1⟩

omit [PromotionPolicy Policy] [Listener Hearer] in
theorem Rests.queued (rests : collector.Rests) (requests : Requests) :
    Rests { collector with requests } :=
  ⟨rests.ready, rests.idle, rests.healthy⟩

omit [PromotionPolicy Policy] [Listener Hearer] in
/-- A cycle is not concerned with the requests that wait. -/
theorem Cycled.of_queued {requests : Requests} {kinds : List CycleKind}
    (cycled : Cycled roots kinds { collector with requests } after) :
    collector.Cycled roots kinds after :=
  ⟨cycled.rests, cycled.retains, cycled.minorCycles, cycled.majorCycles, cycled.allocationFailures⟩

/-! ## What a service keeps -/

theorem cycled_of_serve {remaining : Nat} {reports : List CycleReport}
    {answer : Answer (List CycleReport)} (rests : collector.Rests)
    (ran : serve roots remaining reports collector = .ok (answer, after)) :
    ∃ served kinds, answer = .ok served ∧ collector.Cycled roots kinds after := by
  induction remaining generalizing reports collector with
  | zero => cases ran
  | succ remaining ih =>
      unfold serve at ran
      rcases taken : collector.requests.take with ⟨_ | kind, requests⟩
      · simp only [taken, Except.ok.injEq, Prod.mk.injEq] at ran
        obtain ⟨rfl, rfl⟩ := ran
        exact ⟨reports.reverse, [], rfl, .refl rests roots⟩
      · simp only [taken, Checked.bind_eq_ok_iff] at ran
        obtain ⟨⟨collected, middle⟩, cycle, ran⟩ := ran
        obtain ⟨report, rfl, first⟩ := cycled_of_collect (rests.queued requests) cycle
        obtain ⟨served, kinds, answered, later⟩ := ih first.rests ran
        exact ⟨served, kind :: kinds, answered, first.of_queued.trans later⟩

theorem cycled_of_runPending {answer : Answer (List CycleReport)} (rests : collector.Rests)
    (ran : collector.runPending roots = .ok (answer, after)) :
    ∃ served kinds, answer = .ok served ∧ collector.Cycled roots kinds after := by
  simp only [runPending, checkPoison_eq_ok_iff.mpr rests.healthy] at ran
  exact cycled_of_serve rests ran

/-! ## Services that end -/

/-- The cycles of a service. No request waits after them. -/
structure Serves (roots : Roots) (kinds : List CycleKind)
    (collector after : Collector WindowedMemory Policy Hearer) : Prop where
  cycled : collector.Cycled roots kinds after
  minors : kinds.count .minor = collector.requests.minor.toNat
  majors_le : kinds.count .major ≤ 1
  tallied : after.Tallied
  unasked : after.requests.isEmpty = true

theorem exists_majorTurn (silent : Silent Hearer) (rests : collector.Rests)
    (tallied : collector.Tallied) (minor : collector.requests.minor = false)
    (room : collector.HasRoomFor [.major]) (roots : Roots) (reports : List CycleReport) :
    ∃ served kinds after,
      collector.collectIfAsked .major roots reports = .ok (.ok served, after) ∧
        collector.Serves roots kinds after := by
  cases waits : collector.requests.major with
  | false =>
      have unasked := Requests.isEmpty_iff.mpr ⟨minor, waits⟩
      refine ⟨reports, [], collector, collectIfAsked_of_unasked waits, .refl rests roots, ?_,
        Nat.zero_le 1, tallied, unasked⟩
      rw [minor]
      rfl
  | true =>
      obtain ⟨report, swept, major, _⟩ := exists_collectMajor rests room roots
      obtain ⟨sweptTallied, asked⟩ :=
        tallied.collectMajor silent rests.ready.sound rests.healthy major
      have unasked : swept.requests.isEmpty = true := by
        rw [asked]
        exact Requests.isEmpty_iff.mpr ⟨minor, rfl⟩
      refine ⟨reports ++ [report], [.major], swept, collectIfAsked_of_asked waits major,
        (cycled_of_collectMajor rests major).1, ?_, Nat.le_refl 1, sweptTallied, unasked⟩
      rw [minor]
      rfl

/-- A minor request is served first, and the major cycle that it may ask for next. -/
theorem exists_runPending (silent : Silent Hearer) (rests : collector.Rests)
    (tallied : collector.Tallied) (room : collector.HasRoomFor [.minor, .major]) (roots : Roots) :
    ∃ served kinds after, collector.runPending roots = .ok (.ok served, after) ∧
      collector.Serves roots kinds after := by
  rw [runPending_eq_serveInTurn (silent.quiet _) (checkPoison_eq_ok_iff.mpr rests.healthy)]
  cases waits : collector.requests.minor with
  | false =>
      obtain ⟨served, kinds, after, ran, serves⟩ :=
        exists_majorTurn silent rests tallied waits room.tail roots []
      exact ⟨served, kinds, after,
        Checked.bind_of_eq_ok (collectIfAsked_of_unasked waits) ran, serves⟩
  | true =>
      obtain ⟨report, cleared, minor, left⟩ := exists_collectMinor rests room roots
      have first := (cycled_of_collectMinor rests minor).1
      obtain ⟨clearedTallied, asked⟩ :=
        tallied.collectMinor silent rests.ready.sound rests.healthy minor
      obtain ⟨served, kinds, after, ran, serves⟩ :=
        exists_majorTurn silent first.rests clearedTallied asked left roots [report]
      refine ⟨served, .minor :: kinds, after,
        Checked.bind_of_eq_ok (collectIfAsked_of_asked waits minor) ran,
        first.trans serves.cycled, ?_, ?_, serves.tallied, serves.unasked⟩
      · rw [List.count_cons_self, serves.minors, asked, waits]
        rfl
      · exact serves.majors_le

end Tenure.Collector
