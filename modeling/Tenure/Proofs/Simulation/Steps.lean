import Tenure.Proofs.Collector.Steps
import Tenure.Simulation.Run

/-!
# Steps of simulations

What a simulation does with its collector is a sequence of steps of the collector. Each
step of the simulation places one object, and nothing else that it does places any.
-/

set_option autoImplicit false

namespace Tenure

open Collector (Steps steps_of_allocate steps_of_runPending steps_of_store steps_of_request)

theorem Simulated.run_ofStateful_eq_ok {Value State : Type}
    {operation : Checked (Answer Value × State)} {result : Value × State}
    (ran : (Simulated.ofStateful operation).run = .ok (.ok result)) :
    operation = .ok (.ok result.1, result.2) := by
  unfold Simulated.ofStateful at ran
  rw [ExceptT.run_mk, Checked.bind_eq_ok_iff] at ran
  obtain ⟨⟨answer, state⟩, operated, ran⟩ := ran
  rw [operated]
  cases answer with
  | error failure => cases ran
  | ok value =>
      cases ran
      rfl

theorem Simulated.run_ofRefusable_eq_ok {Value : Type} {operation : Refusable Value}
    {value : Value} (ran : (Simulated.ofRefusable operation).run = .ok (.ok value)) :
    operation.run = .ok (.ok value) := by
  unfold Simulated.ofRefusable at ran
  rw [ExceptT.run_adapt] at ran
  cases operated : operation.run with
  | error trap =>
      rw [operated] at ran
      cases ran
  | ok answer =>
      rw [operated] at ran
      cases answer with
      | error failure => cases ran
      | ok other =>
          cases ran
          rfl

namespace Simulation

variable {Random Policy : Type} {simulation after : Simulation Random Policy}
  {workload : Workload}

/-! ## Steps -/

theorem start_eq_ok {settings : Settings} {policy : Policy} {random : Random}
    (ran : (start settings workload policy random).run = .ok (.ok simulation)) :
    ∃ heap window, (Heap.create settings (WindowedMemory.fresh none)).run = .ok (.ok heap) ∧
      RootWindow.create workload.maxRoots.toNat = .ok window ∧
      simulation = { collector := .ofHeap heap policy .empty, window, random } := by
  unfold start at ran
  obtain ⟨heap, created, ran⟩ := Checked.run_bind_eq_ok ran
  obtain ⟨window, opened, ran⟩ := Checked.run_bind_eq_ok ran
  cases ran
  exact ⟨heap, window, Simulated.run_ofRefusable_eq_ok created, Checked.run_lift_eq_ok opened, rfl⟩

/-- A new object is stored into a field, or nothing happens but choices. -/
theorem link_eq_ok [RandomSource Random] {handle : Handle}
    (ran : (simulation.link workload handle).run = .ok (.ok after)) :
    after.collector = simulation.collector ∨ ∃ holder index,
      simulation.collector.store holder index (some handle) = .ok (.ok (), after.collector) := by
  unfold link at ran
  split at ran
  · dsimp only at ran
    split at ran
    · split at ran
      · cases Checked.run_pure_eq_ok ran
        exact .inl rfl
      · unfold store at ran
        obtain ⟨⟨_, collector⟩, stored, ran⟩ := Checked.run_bind_eq_ok ran
        cases Checked.run_pure_eq_ok ran
        exact .inr ⟨_, _, Simulated.run_ofStateful_eq_ok stored⟩
    · cases Checked.run_pure_eq_ok ran
      exact .inl rfl
  · cases Checked.run_pure_eq_ok ran
    exact .inl rfl

theorem steps_of_link [RandomSource Random] {handle : Handle}
    (ran : (simulation.link workload handle).run = .ok (.ok after)) :
    Steps simulation.collector [] after.collector := by
  rcases link_eq_ok ran with same | ⟨_, _, stored⟩
  · rw [same]
    exact .refl _
  · exact steps_of_store stored

theorem collector_keep [RandomSource Random] (simulation : Simulation Random Policy)
    (workload : Workload) (handle : Handle) :
    (simulation.keep workload handle).collector = simulation.collector := by
  unfold keep
  rcases RandomSource.coin simulation.random workload.survival with ⟨_ | _, random⟩
  · rfl
  · rfl

variable [PromotionPolicy Policy]

theorem serve_eq_ok (ran : simulation.serve.run = .ok (.ok after)) : ∃ reports collector,
    simulation.collector.runPending simulation.window = .ok (.ok reports, collector) ∧
      after = { simulation with collector } := by
  unfold serve at ran
  obtain ⟨⟨reports, collector⟩, served, ran⟩ := Checked.run_bind_eq_ok ran
  cases ran
  exact ⟨reports, collector, Simulated.run_ofStateful_eq_ok served, rfl⟩

theorem allocate_eq_ok {handle : Handle}
    (ran : (simulation.allocate workload).run = .ok (.ok (handle, after))) : ∃ collector,
    simulation.collector.allocate simulation.window workload.objectSize.toNat
        workload.fields.toNat = .ok (.ok handle, collector) ∧
      after = { simulation with collector } := by
  unfold allocate at ran
  obtain ⟨⟨_, collector⟩, allocated, ran⟩ := Checked.run_bind_eq_ok ran
  cases ran
  exact ⟨collector, Simulated.run_ofStateful_eq_ok allocated, rfl⟩

theorem steps_of_serve (ran : simulation.serve.run = .ok (.ok after)) :
    Steps simulation.collector [] after.collector := by
  obtain ⟨_, _, served, rfl⟩ := serve_eq_ok ran
  exact steps_of_runPending served

theorem steps_of_allocation {handle : Handle}
    (ran : (simulation.allocate workload).run = .ok (.ok (handle, after))) :
    Steps simulation.collector [workload.objectSize.toNat] after.collector := by
  obtain ⟨_, allocated, rfl⟩ := allocate_eq_ok ran
  exact steps_of_allocate allocated

theorem steps_of_finish (ran : simulation.finish.run = .ok (.ok after)) :
    Steps simulation.collector [] after.collector := by
  unfold finish at ran
  obtain ⟨⟨_, collector⟩, requested, served⟩ := Checked.run_bind_eq_ok ran
  have first : Steps simulation.collector [] collector :=
    steps_of_request (Checked.run_lift_eq_ok requested)
  exact first.trans (steps_of_serve served)

variable [RandomSource Random]

/-- One step of a simulation places one object. -/
theorem steps_of_step (ran : (simulation.step workload).run = .ok (.ok after)) :
    Steps simulation.collector [workload.objectSize.toNat] after.collector := by
  unfold step at ran
  obtain ⟨⟨handle, allocated⟩, allocation, ran⟩ := Checked.run_bind_eq_ok ran
  obtain ⟨linked, link, served⟩ := Checked.run_bind_eq_ok ran
  have serving := steps_of_serve served
  rw [collector_keep] at serving
  exact (steps_of_allocation allocation).trans ((steps_of_link link).trans serving)

theorem steps_of_steps {count : Nat} (ran : (steps workload count simulation).run = .ok (.ok after)) :
    Steps simulation.collector (List.replicate count workload.objectSize.toNat)
      after.collector := by
  induction count generalizing simulation with
  | zero =>
      cases ran
      exact .refl _
  | succ count ih =>
      unfold steps at ran
      obtain ⟨middle, stepped, ran⟩ := Checked.run_bind_eq_ok ran
      exact (steps_of_step stepped).trans (ih ran)

end Simulation

end Tenure
