import Tenure.Proofs.Collector.Conservation
import Tenure.Proofs.Heap.Completion

/-!
# Collectors that a program can have

A program begins with a collector over a new heap on windowed memory. Then it performs
operations of the collector, in between also operations of its heap, and it may exchange the
policy and the listeners. The heap of such a collector is ready for every operation, and the
collector is idle between operations and refuses nothing.
-/

set_option autoImplicit false

namespace Tenure

theorem Heap.Ready.attains {heap after : Heap WindowedMemory} (ready : heap.Ready)
    (attains : heap.Attains after) : after.Ready := by
  obtain ⟨operations, ran⟩ := attains
  exact ready.performAll ran

namespace Collector

variable {Policy Hearer : Type} [PromotionPolicy Policy] [Listener Hearer]

/-- Operations of the collector and of its heap lead to a collector from a new one. -/
inductive Reachable : Collector WindowedMemory Policy Hearer → Prop where
  | began {settings : Settings} {budget : Option Nat} {heap : Heap WindowedMemory}
      (created : (Heap.create settings (WindowedMemory.fresh budget)).run = .ok (.ok heap))
      (policy : Policy) (hearer : Hearer) : Reachable (ofHeap heap policy hearer)
  | performed {Roots : Type} [RootProvider Roots]
      {collector after : Collector WindowedMemory Policy Hearer} {operation : Operation Roots}
      (earlier : Reachable collector) (ran : collector.perform operation = .ok after) :
      Reachable after
  | touched {collector : Collector WindowedMemory Policy Hearer} {heap : Heap WindowedMemory}
      {operation : Heap.Operation} (earlier : Reachable collector)
      (ran : collector.heap.perform operation = .ok heap) : Reachable { collector with heap }
  | rewired {collector : Collector WindowedMemory Policy Hearer} (earlier : Reachable collector)
      (policy : Policy) (hearer : Hearer) : Reachable { collector with policy, hearer }

/-- Between operations the collector is idle and has not met a broken invariant. -/
structure Rests (collector : Collector WindowedMemory Policy Hearer) : Prop where
  ready : collector.heap.Ready
  idle : collector.phase = .idle
  healthy : collector.poison = none

variable {collector after : Collector WindowedMemory Policy Hearer}

omit [PromotionPolicy Policy] [Listener Hearer] in
theorem Rests.step (rests : collector.Rests) {placed : Option Nat}
    (step : Step collector placed after) : after.Rests := by
  have ready := rests.ready.attains (attains_of_step step)
  cases step with
  | queued requests => exact ⟨ready, rests.idle, rests.healthy⟩
  | placed ran => exact ⟨ready, rests.idle, rests.healthy⟩
  | stored ran => exact ⟨ready, rests.idle, rests.healthy⟩
  | minor _ _ counts => exact ⟨ready, counts.phase, counts.poison.trans rests.healthy⟩
  | major _ counts => exact ⟨ready, counts.phase, counts.poison.trans rests.healthy⟩
  | gaveUp allocationFailures => exact ⟨ready, rests.idle, rests.healthy⟩

omit [PromotionPolicy Policy] [Listener Hearer] in
theorem Rests.steps (rests : collector.Rests) {sizes : List Nat}
    (steps : Steps collector sizes after) : after.Rests :=
  steps.invariant Rests (fun step holds => holds.step step) rests

theorem Reachable.rests (reachable : collector.Reachable) : collector.Rests := by
  induction reachable with
  | began created policy hearer => exact ⟨Heap.ready_of_create created, rfl, rfl⟩
  | performed _ ran ih =>
      obtain ⟨sizes, steps⟩ := exists_steps_of_perform ran
      exact ih.steps steps
  | touched _ ran ih => exact ⟨ih.ready.perform ran, ih.idle, ih.healthy⟩
  | rewired _ policy hearer ih => exact ⟨ih.ready, ih.idle, ih.healthy⟩

/-! ## Runs from a new collector -/

section Runs

variable {Roots : Type} [RootProvider Roots]

theorem Reachable.performAll (reachable : collector.Reachable) {operations : List (Operation Roots)}
    (ran : collector.performAll operations = .ok after) : after.Reachable :=
  Checked.foldlM_induction (fun _ current => Reachable current) ran reachable
    fun _ _ _ _ _ _ current stepped => current.performed stepped

/-- Whether operations of a collector over a new heap lead to one that passes a test. -/
def leadsTo (settings : Settings) (budget : Option Nat) (policy : Policy) (hearer : Hearer)
    (operations : List (Operation Roots))
    (test : Collector WindowedMemory Policy Hearer → Bool) : Bool :=
  match (Heap.create settings (WindowedMemory.fresh budget)).run with
  | .ok (.ok heap) =>
    ((ofHeap heap policy hearer).performAll operations).toOption.any test
  | _ => false

theorem reachable_of_leadsTo {settings : Settings} {budget : Option Nat} {policy : Policy}
    {hearer : Hearer} {operations : List (Operation Roots)}
    {test : Collector WindowedMemory Policy Hearer → Bool}
    (passes : leadsTo settings budget policy hearer operations test = true) :
    ∃ collector : Collector WindowedMemory Policy Hearer,
      collector.Reachable ∧ test collector = true := by
  unfold leadsTo at passes
  split at passes
  · rename_i heap created
    obtain ⟨collector, performed, tested⟩ := Checked.eq_ok_of_any passes
    exact ⟨collector, (Reachable.began created policy hearer).performAll performed, tested⟩
  · cases passes

end Runs

end Collector

end Tenure
