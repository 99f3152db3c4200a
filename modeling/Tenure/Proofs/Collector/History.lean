import Tenure.Proofs.Collector.Cycles
import Tenure.Proofs.Collector.Recording
import Tenure.Proofs.Heap.Reclamation

/-!
# Histories of heaps

Whatever is asked of a collector, its heap goes through cycles, new objects and stores
only, and stays sound between them.
-/

set_option autoImplicit false

namespace Tenure

/-- What a moment does to a heap. -/
inductive Moment.Changes {Source : Type} (heap : Heap Source) :
    Moment Source → Heap Source → Prop where
  | cycle {roots : List Handle} {after : Heap Source} (retains : heap.Retains roots after) :
      Changes heap (.cycle heap roots after) after
  | allocated {handle : Handle} {size fieldCount : Nat}
      (fresh : heap.directory.fresh? = some handle) :
      Changes heap (.allocated handle fieldCount) (heap.withNew handle size fieldCount)
  | stored {holder : Handle} {index : Nat} {value : Option Handle} {record : Record}
      {cards : CardTable} {barrier : BarrierCounts}
      (found : heap.directory.get? holder = some record) :
      Changes heap (.stored holder index value)
        (heap.withField holder index value cards barrier)

/-- Moments lead from one sound heap to another. -/
inductive History {Source : Type} : Heap Source → List (Moment Source) → Heap Source → Prop where
  | nil {heap : Heap Source} (sound : heap.Sound) : History heap [] heap
  | cons {heap middle after : Heap Source} {moment : Moment Source}
      {moments : List (Moment Source)} (sound : heap.Sound)
      (changes : moment.Changes heap middle) (rest : History middle moments after) :
      History heap (moment :: moments) after

namespace History

variable {Source : Type} {heap middle after : Heap Source}
  {moments later : List (Moment Source)}

theorem sound_first (history : History heap moments after) : heap.Sound := by
  cases history with
  | nil sound => exact sound
  | cons sound _ _ => exact sound

theorem sound_last (history : History heap moments after) : after.Sound := by
  induction history with
  | nil sound => exact sound
  | cons _ _ _ ih => exact ih

theorem one {moment : Moment Source} (sound : heap.Sound)
    (changes : moment.Changes heap after) (soundAfter : after.Sound) :
    History heap [moment] after :=
  .cons sound changes (.nil soundAfter)

theorem append (first : History heap moments middle) (second : History middle later after) :
    History heap (moments ++ later) after := by
  induction first with
  | nil _ => exact second
  | cons sound changes _ ih => exact .cons sound changes (ih second)

theorem split (history : History heap (moments ++ later) after) :
    ∃ middle, History heap moments middle ∧ History middle later after := by
  induction moments generalizing heap with
  | nil => exact ⟨heap, .nil history.sound_first, history⟩
  | cons moment rest ih =>
      cases history with
      | cons sound changes tail =>
          obtain ⟨middle, first, second⟩ := ih tail
          exact ⟨middle, .cons sound changes first, second⟩

end History

namespace Collector

variable {Source Policy Hearer : Type} {collector after : Collector Source Policy Hearer}

/-! ## Operations -/

/-- The live roots are all that a cycle is promised for. -/
theorem retains_of_liveRoots {Roots : Type} [RootProvider Roots] {roots : Roots} {final : Heap Source}
    (retains : collector.heap.Retains (collector.liveRoots roots) final) :
    collector.heap.Retains (RootProvider.current roots) final :=
  ⟨retains.fields, fun root member live =>
    retains.live root (List.mem_filter.mpr ⟨member, live⟩) live, retains.turns⟩

theorem history_of_tryAllocate {size fieldCount : Nat} {placed : Option Handle}
    {moments : List (Moment Source)} (sound : collector.heap.Sound)
    (ran : collector.tryAllocateRecorded size fieldCount = .ok (placed, after, moments)) :
    History collector.heap moments after.heap := by
  unfold tryAllocateRecorded tryAllocate at ran
  simp only [Checked.bind_eq_ok_iff, Checked.pure_eq_ok_iff, Prod.mk.injEq] at ran
  obtain ⟨⟨_, _⟩, ⟨⟨answer, heap⟩, allocated, rfl, rfl⟩, rfl, rfl, rfl⟩ := ran
  have soundAfter := sound.tryAllocate allocated
  rcases Heap.tryAllocate_eq_ok allocated with
    ⟨rfl, rfl⟩ | ⟨handle, room, rfl, fresh, _, _, rfl⟩
  · exact .nil sound
  · exact .one sound (.allocated fresh) soundAfter

theorem history_of_store {holder : Handle} {index : Nat} {value : Option Handle}
    {answer : Answer Unit} {moments : List (Moment Source)} (sound : collector.heap.Sound)
    (ran : collector.storeRecorded holder index value = .ok (answer, after, moments)) :
    History collector.heap moments after.heap := by
  unfold storeRecorded store at ran
  simp only [Checked.bind_eq_ok_iff, Checked.pure_eq_ok_iff] at ran
  obtain ⟨⟨_, _⟩, ⟨⟨answered, heap⟩, stored, rfl, rfl⟩, ran⟩ := ran
  have soundAfter := sound.store stored
  rcases Heap.store_eq_ok stored with
    ⟨failure, rfl, rfl⟩ | ⟨generation, record, _, cards, barrier, rfl, checked, _, rfl⟩
  · simp only [Checked.pure_eq_ok_iff, Prod.mk.injEq] at ran
    obtain ⟨_, rfl, rfl⟩ := ran
    exact .nil sound
  · simp only [Checked.pure_eq_ok_iff, Prod.mk.injEq] at ran
    obtain ⟨_, rfl, rfl⟩ := ran
    exact .one sound (.stored (Heap.checkStore_eq_ok checked).2.1) soundAfter

section Cycles

variable [MemorySource Source] [PromotionPolicy Policy] [Listener Hearer]
variable {Roots : Type} [RootProvider Roots]

/-- A cycle is a moment that keeps its promises. -/
theorem history_of_collect {kind : CycleKind} {roots : Roots} {answer : Answer CycleReport}
    {moments : List (Moment Source)} (sound : collector.heap.Sound)
    (ran : collector.collectRecorded kind roots = .ok (answer, after, moments)) :
    History collector.heap moments after.heap := by
  unfold collectRecorded at ran
  rw [Checked.bind_eq_ok_iff] at ran
  obtain ⟨⟨answered, final⟩, collected, ran⟩ := ran
  have cycle : (∃ failure, collector.checkPoison = .error failure ∧ final = collector) ∨
      (collector.checkPoison = .ok () ∧
        collector.heap.Retains (RootProvider.current roots) final.heap ∧ final.heap.Sound) := by
    cases kind with
    | minor =>
        rcases collectMinor_eq_ok collected with
          ⟨failure, poisoned, _, same⟩ |
          ⟨healthy, _, _, heap, _, threshold, _, cycle, same, _⟩
        · exact .inl ⟨failure, poisoned, same⟩
        · rw [same]
          exact .inr ⟨healthy,
            (retains_of_liveRoots (sound.retains_of_minorCycle cycle)).setThreshold threshold,
            (sound.minorCycle cycle).setThreshold threshold⟩
    | major =>
        rcases collectMajor_eq_ok collected with
          ⟨failure, poisoned, _, same⟩ | ⟨healthy, _, _, _, _, cycle, _⟩
        · exact .inl ⟨failure, poisoned, same⟩
        · exact .inr ⟨healthy, retains_of_liveRoots (sound.retains_of_majorCycle cycle),
            sound.majorCycle cycle⟩
  rcases cycle with ⟨failure, poisoned, rfl⟩ | ⟨healthy, retains, soundAfter⟩
  · simp only [poisoned, Checked.pure_eq_ok_iff, Prod.mk.injEq] at ran
    obtain ⟨_, rfl, rfl⟩ := ran
    exact .nil sound
  · simp only [healthy, Checked.pure_eq_ok_iff, Prod.mk.injEq] at ran
    obtain ⟨_, rfl, rfl⟩ := ran
    exact .one sound (.cycle retains) soundAfter

theorem history_of_allocation {roots : Roots} {size fieldCount : Nat} {answer : Answer Handle}
    {moments : List (Moment Source)} (sound : collector.heap.Sound)
    (run : Allocation roots size fieldCount collector answer after moments) :
    History collector.heap moments after.heap := by
  induction run with
  | refused _ => exact .nil sound
  | gaveUp ran =>
      obtain ⟨_, _, _, _, _, _, _, rfl⟩ := giveUp_eq_ok ran
      exact .nil sound
  | placed ran => exact history_of_tryAllocate sound ran
  | crowded ran _ ih =>
      have first := history_of_tryAllocate sound ran
      exact first.append (ih first.sound_last)
  | cycled ran _ ih =>
      have first := history_of_collect sound ran
      exact first.append (ih first.sound_last)

theorem history_of_serve {roots : Roots} {remaining : Nat} {reports : List CycleReport}
    {answer : Answer (List CycleReport)} {moments : List (Moment Source)}
    (sound : collector.heap.Sound)
    (ran : serveRecorded roots remaining reports collector = .ok (answer, after, moments)) :
    History collector.heap moments after.heap := by
  induction remaining generalizing reports collector answer moments with
  | zero => simp [serveRecorded] at ran
  | succ remaining ih =>
      unfold serveRecorded at ran
      rcases taken : collector.requests.take with ⟨_ | kind, requests⟩
      · simp only [taken, Except.ok.injEq, Prod.mk.injEq] at ran
        obtain ⟨_, rfl, rfl⟩ := ran
        exact .nil sound
      · simp only [taken, Checked.bind_eq_ok_iff] at ran
        obtain ⟨⟨collected, middle, cycle⟩, cycled, ran⟩ := ran
        have first := history_of_collect (by exact sound) cycled
        cases collected with
        | error failure =>
            simp only [Checked.pure_eq_ok_iff, Prod.mk.injEq] at ran
            obtain ⟨_, rfl, rfl⟩ := ran
            exact first
        | ok report =>
            simp only [Checked.bind_eq_ok_iff, Checked.pure_eq_ok_iff, Prod.mk.injEq] at ran
            obtain ⟨⟨_, final, later⟩, served, _, rfl, rfl⟩ := ran
            exact first.append (ih first.sound_last served)

theorem history_of_perform {operation : Operation Roots} {moments : List (Moment Source)}
    (sound : collector.heap.Sound)
    (ran : collector.performRecorded operation = .ok (after, moments)) :
    History collector.heap moments after.heap := by
  cases operation with
  | allocate roots size fieldCount =>
      simp only [performRecorded, Checked.bind_eq_ok_iff, Checked.pure_eq_ok_iff,
        Prod.mk.injEq] at ran
      obtain ⟨⟨_, _, _⟩, allocated, rfl, rfl⟩ := ran
      exact history_of_allocation sound (allocation_of_allocate allocated)
  | store holder index value =>
      simp only [performRecorded, Checked.bind_eq_ok_iff, Checked.pure_eq_ok_iff,
        Prod.mk.injEq] at ran
      obtain ⟨⟨_, _, _⟩, stored, rfl, rfl⟩ := ran
      exact history_of_store sound stored
  | load holder index =>
      simp only [performRecorded, Checked.pure_eq_ok_iff, Prod.mk.injEq] at ran
      obtain ⟨rfl, rfl⟩ := ran
      exact .nil sound
  | request kind =>
      simp only [performRecorded, Checked.bind_eq_ok_iff, Checked.pure_eq_ok_iff,
        Prod.mk.injEq] at ran
      obtain ⟨⟨_, _⟩, requested, rfl, rfl⟩ := ran
      obtain ⟨_, rfl⟩ := request_eq_ok requested
      exact .nil sound
  | runPending roots =>
      simp only [performRecorded, Checked.bind_eq_ok_iff, Checked.pure_eq_ok_iff,
        Prod.mk.injEq] at ran
      obtain ⟨⟨_, _, _⟩, served, rfl, rfl⟩ := ran
      unfold runPendingRecorded at served
      split at served
      · simp only [Except.ok.injEq, Prod.mk.injEq] at served
        obtain ⟨_, rfl, rfl⟩ := served
        exact .nil sound
      · exact history_of_serve sound served
  | collect kind roots =>
      simp only [performRecorded, Checked.bind_eq_ok_iff, Checked.pure_eq_ok_iff,
        Prod.mk.injEq] at ran
      obtain ⟨⟨_, _, _⟩, collected, rfl, rfl⟩ := ran
      exact history_of_collect sound collected

/-- Every run takes the heap through moments. -/
theorem history_of_performAll {operations : List (Operation Roots)}
    {moments : List (Moment Source)} (sound : collector.heap.Sound)
    (ran : collector.performAllRecorded operations = .ok (after, moments)) :
    History collector.heap moments after.heap := by
  induction operations generalizing collector moments with
  | nil =>
      simp only [performAllRecorded, Checked.pure_eq_ok_iff, Prod.mk.injEq] at ran
      obtain ⟨rfl, rfl⟩ := ran
      exact .nil sound
  | cons operation rest ih =>
      simp only [performAllRecorded, Checked.bind_eq_ok_iff, Checked.pure_eq_ok_iff,
        Prod.mk.injEq] at ran
      obtain ⟨⟨middle, first⟩, performed, ⟨final, later⟩, followed, rfl, rfl⟩ := ran
      have history := history_of_perform sound performed
      exact history.append (ih history.sound_last followed)

end Cycles

end Collector

end Tenure
