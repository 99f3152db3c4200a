import Tenure.Proofs.Collector.Pacing
import Tenure.Proofs.Simulation.Conservation

/-!
# Intervals of simulations

A simulation serves all requests after each allocation, and once more at its end. So its
report never has more minor cycles in a row than the interval of its settings allows.
-/

set_option autoImplicit false

namespace Tenure

namespace Simulation

variable {Random Policy : Type} [PromotionPolicy Policy]
  {simulation after : Simulation Random Policy} {workload : Workload} {interval : Nat}

omit [PromotionPolicy Policy] in
theorem rested_of_start {settings : Settings} {policy : Policy} {random : Random}
    (enforced : 0 < settings.majorCycleInterval.toNat)
    (ran : (start settings workload policy random).run = .ok (.ok simulation)) :
    simulation.collector.Rested settings.majorCycleInterval.toNat := by
  obtain ⟨heap, _, created, _, rfl⟩ := start_eq_ok ran
  obtain ⟨_, _, _, creation⟩ := Heap.creation_of_create created
  have attainable : heap.Attainable := ⟨settings, _, heap, [], created, rfl⟩
  refine ⟨⟨⟨attainable, rfl, rfl, rfl, rfl⟩, ?_, fun block inside minors => ?_, ?_, ?_⟩, rfl, rfl⟩
  · rw [← creation.settings_eq]
    rfl
  · rw [List.infix_nil.mp inside]
    exact Nat.zero_le _
  · intro reached
    exact absurd reached enforced.ne
  · exact fun _ => enforced

omit [PromotionPolicy Policy] in
theorem paces_of_link [RandomSource Random] {handle : Handle}
    (paces : simulation.collector.Paces interval)
    (ran : (simulation.link workload handle).run = .ok (.ok after)) :
    after.collector.Paces interval := by
  rcases link_eq_ok ran with same | ⟨_, _, stored⟩
  · rw [same]
    exact paces
  · unfold Collector.store at stored
    simp only [Checked.bind_eq_ok_iff, Checked.pure_eq_ok_iff, Prod.mk.injEq] at stored
    obtain ⟨⟨_, heap⟩, ran, _, same⟩ := stored
    rw [← same]
    exact paces.touched (.one (.store ran))

theorem rested_of_serve (paces : simulation.collector.Paces interval) (enforced : 0 < interval)
    (ran : simulation.serve.run = .ok (.ok after)) : after.collector.Rested interval := by
  obtain ⟨_, _, served, rfl⟩ := serve_eq_ok ran
  exact paces.runPending enforced served

theorem rested_of_finish (rested : simulation.collector.Rested interval)
    (ran : simulation.finish.run = .ok (.ok after)) : after.collector.Rested interval := by
  unfold finish at ran
  obtain ⟨⟨_, collector⟩, requested, served⟩ := Checked.run_bind_eq_ok ran
  obtain ⟨requests, rfl⟩ := Collector.request_eq_ok (Checked.run_lift_eq_ok requested)
  exact rested_of_serve (rested.queued requests) rested.enforced served

variable [RandomSource Random]

theorem rested_of_step (rested : simulation.collector.Rested interval)
    (ran : (simulation.step workload).run = .ok (.ok after)) :
    after.collector.Rested interval := by
  unfold step at ran
  obtain ⟨⟨handle, allocated⟩, allocation, ran⟩ := Checked.run_bind_eq_ok ran
  obtain ⟨linked, link, served⟩ := Checked.run_bind_eq_ok ran
  obtain ⟨_, placed, rfl⟩ := allocate_eq_ok allocation
  refine rested_of_serve ?_ rested.enforced served
  rw [collector_keep]
  exact paces_of_link (rested.allocate placed) link

theorem rested_of_steps {count : Nat} (rested : simulation.collector.Rested interval)
    (ran : (steps workload count simulation).run = .ok (.ok after)) :
    after.collector.Rested interval := by
  induction count generalizing simulation with
  | zero =>
      cases ran
      exact rested
  | succ count ih =>
      unfold steps at ran
      obtain ⟨middle, stepped, ran⟩ := Checked.run_bind_eq_ok ran
      exact ih (rested_of_step rested stepped) ran

theorem spaced_of_runWith {settings : Settings} {policy : Policy} {random : Random}
    {report : Report} (enforced : 0 < settings.majorCycleInterval.toNat)
    (ran : (runWith settings workload policy random).run = .ok (.ok report)) :
    Spaced settings.majorCycleInterval.toNat report.cycles := by
  unfold runWith at ran
  obtain ⟨first, started, ran⟩ := Checked.run_bind_eq_ok ran
  obtain ⟨middle, stepped, ran⟩ := Checked.run_bind_eq_ok ran
  obtain ⟨last, finished, ran⟩ := Checked.run_bind_eq_ok ran
  cases ran
  exact (rested_of_finish (rested_of_steps (rested_of_start enforced started) stepped)
    finished).paces.spaced

end Simulation

/-- With an interval, a report has no more minor cycles in a row than the interval allows,
whatever asked for them and whatever was left to chance. -/
theorem Workload.minors_within_interval {Random : Type} [RandomSource Random]
    {workload : Workload} {settings : Settings} {random : Random} {report : Report}
    (enforced : 0 < settings.majorCycleInterval.toNat)
    (ran : (workload.runFrom settings random).run = .ok (.ok report)) :
    Spaced settings.majorCycleInterval.toNat report.cycles := by
  unfold runFrom at ran
  obtain ⟨_, _, ran⟩ := Checked.run_bind_eq_ok ran
  split at ran
  · exact Simulation.spaced_of_runWith enforced ran
  · exact Simulation.spaced_of_runWith enforced ran

def pairingSettings : Settings := { Heap.smallSettings with majorCycleInterval := 2 }

/-- Eden holds two of the objects. -/
def bulkyWorkload : Workload := { smallWorkload with objectSize := 100 }

/-- Two minor cycles make room for objects, the second one asks for a major cycle, and one
more follows at the end. -/
theorem Workload.minors_within_interval_of_bulky : ∃ report,
    (bulkyWorkload.runFrom pairingSettings (SeededRandom.ofSeed bulkyWorkload.seed)).run =
      .ok (.ok report) ∧
    report.cycles.map CycleReport.kind = [.minor, .minor, .major, .minor] ∧
    Spaced 2 report.cycles := by
  obtain ⟨answer, ran, passes⟩ := Checked.eq_ok_of_any
    (show (bulkyWorkload.runFrom pairingSettings
        (SeededRandom.ofSeed bulkyWorkload.seed)).run.toOption.any (fun answer =>
      answer.toOption.any fun report =>
        decide (report.cycles.map CycleReport.kind = [.minor, .minor, .major, .minor])) = true
      by decide +kernel)
  cases answer with
  | error failure => cases passes
  | ok report =>
      exact ⟨report, ran, of_decide_eq_true passes,
        Workload.minors_within_interval (by decide) ran⟩

end Tenure
