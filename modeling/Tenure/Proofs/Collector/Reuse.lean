import Tenure.Proofs.Collector.History

/-!
# Handles are not handed out again

The epoch of a slot counts how often the slot was reclaimed. A handle that was live once
names its slot with an epoch of then, so until the count comes around no allocation
answers it again.
-/

set_option autoImplicit false

namespace Tenure

/-- Whether a moment is a cycle that reclaims the object in a slot. -/
def Moment.reclaims {Source : Type} (slot : UInt32) : Moment Source → Bool
  | .cycle before _ after => before.directory.reclaims after.directory slot
  | _ => false

def reclaimCount {Source : Type} (slot : UInt32) (moments : List (Moment Source)) : Nat :=
  moments.countP fun moment => moment.reclaims slot

namespace History

variable {Source : Type} {heap after : Heap Source} {moments : List (Moment Source)}

theorem recycles_of_changes {moment : Moment Source} (sound : heap.Sound)
    (changes : moment.Changes heap after) (slot : UInt32) :
    heap.directory.Recycles slot (if moment.reclaims slot then 1 else 0) after.directory := by
  cases changes with
  | cycle retains => exact retains.turns.recycles sound.consistent.directory slot
  | @allocated handle size fieldCount fresh =>
      exact heap.directory.recycles_insert (heap.newRecord size fieldCount) slot
  | stored _ =>
      intro epoch occupied known
      rw [Heap.withField, Directory.occupancy_update]
      exact Directory.Recycles.refl _ slot epoch occupied known

/-- The epoch of a slot counts how often it was reclaimed. -/
theorem recycles (history : History heap moments after) (slot : UInt32) :
    heap.directory.Recycles slot (reclaimCount slot moments) after.directory := by
  induction history with
  | nil _ => exact .refl _ slot
  | @cons heap middle after moment moments sound changes rest ih =>
      have counts : reclaimCount slot (moment :: moments) =
          (if moment.reclaims slot then 1 else 0) + reclaimCount slot moments := by
        rw [reclaimCount, List.countP_cons, Nat.add_comm]
        rfl
      rw [counts]
      exact (recycles_of_changes sound changes slot).trans ih

/-- While a slot is reclaimed fewer than 2³² times, no handle of it is handed out twice. -/
theorem not_allocated_again (history : History heap moments after) {handle : Handle}
    (live : heap.directory.isLive handle = true)
    (rare : reclaimCount handle.slot moments < UInt32.size) (count : Nat) :
    Moment.allocated handle count ∉ moments := by
  intro member
  obtain ⟨first, rest, rfl⟩ := List.append_of_mem member
  obtain ⟨middle, before, again⟩ := history.split
  have fewer : reclaimCount handle.slot first < UInt32.size := by
    refine Nat.lt_of_le_of_lt ?_ rare
    simp only [reclaimCount, List.countP_append]
    omega
  cases again with
  | cons sound changes _ =>
      cases changes with
      | allocated fresh =>
          exact (before.recycles handle.slot).not_fresh sound.consistent.directory live fewer fresh

end History

/-! ## What allocations record -/

def Moment.IsCycle {Source : Type} : Moment Source → Prop
  | .cycle _ _ _ => True
  | _ => False

namespace Collector

variable {Source Policy Hearer : Type} {collector after : Collector Source Policy Hearer}

/-- Cycles, and then the handle that was answered. -/
def RecordsAnswer (answer : Answer Handle) (fieldCount : Nat) (moments : List (Moment Source)) :
    Prop :=
  ∃ cycles : List (Moment Source), (∀ moment ∈ cycles, moment.IsCycle) ∧
    moments = cycles ++ answer.toOption.toList.map fun handle => .allocated handle fieldCount

theorem RecordsAnswer.prepend {answer : Answer Handle} {fieldCount : Nat}
    {cycles moments : List (Moment Source)} (only : ∀ moment ∈ cycles, moment.IsCycle)
    (records : RecordsAnswer answer fieldCount moments) :
    RecordsAnswer answer fieldCount (cycles ++ moments) := by
  obtain ⟨more, also, rfl⟩ := records
  refine ⟨cycles ++ more, fun moment member => ?_, (List.append_assoc ..).symm⟩
  rcases List.mem_append.mp member with first | second
  · exact only moment first
  · exact also moment second

theorem RecordsAnswer.mem_iff {answer : Answer Handle} {fieldCount : Nat}
    {moments : List (Moment Source)} (records : RecordsAnswer answer fieldCount moments)
    {handle : Handle} {count : Nat} :
    .allocated handle count ∈ moments ↔ answer = .ok handle ∧ count = fieldCount := by
  obtain ⟨cycles, only, rfl⟩ := records
  have absent : .allocated handle count ∉ cycles := fun member => only _ member
  cases answer with
  | error failure => simp [absent, Except.toOption]
  | ok answered => simp [absent, Except.toOption, eq_comm]

theorem moments_of_tryAllocate {size fieldCount : Nat} {placed : Option Handle}
    {moments : List (Moment Source)}
    (ran : collector.tryAllocateRecorded size fieldCount = .ok (placed, after, moments)) :
    moments = placed.toList.map fun handle => .allocated handle fieldCount := by
  unfold tryAllocateRecorded at ran
  simp only [Checked.bind_eq_ok_iff, Checked.pure_eq_ok_iff, Prod.mk.injEq] at ran
  obtain ⟨_, _, rfl, _, rfl⟩ := ran
  rfl

section Cycles

variable [MemorySource Source] [PromotionPolicy Policy] [Listener Hearer]
variable {Roots : Type} [RootProvider Roots]

theorem moments_of_collect {kind : CycleKind} {roots : Roots} {answer : Answer CycleReport}
    {moments : List (Moment Source)}
    (ran : collector.collectRecorded kind roots = .ok (answer, after, moments)) :
    ∀ moment ∈ moments, moment.IsCycle := by
  unfold collectRecorded at ran
  rw [Checked.bind_eq_ok_iff] at ran
  obtain ⟨⟨answered, final⟩, collected, ran⟩ := ran
  cases poison : collector.checkPoison with
  | error failure =>
      simp only [poison, Checked.pure_eq_ok_iff, Prod.mk.injEq] at ran
      obtain ⟨_, _, rfl⟩ := ran
      simp
  | ok _ =>
      simp only [poison, Checked.pure_eq_ok_iff, Prod.mk.injEq] at ran
      obtain ⟨_, _, rfl⟩ := ran
      simp [Moment.IsCycle]

/-- An allocation records its cycles and then the handle that it answers. -/
theorem records_of_allocation {roots : Roots} {size fieldCount : Nat} {answer : Answer Handle}
    {moments : List (Moment Source)}
    (run : Allocation roots size fieldCount collector answer after moments) :
    RecordsAnswer answer fieldCount moments := by
  induction run with
  | refused _ => exact ⟨[], by simp, rfl⟩
  | gaveUp _ => exact ⟨[], by simp, rfl⟩
  | placed ran => exact ⟨[], by simp, moments_of_tryAllocate ran⟩
  | crowded ran _ ih =>
      rw [moments_of_tryAllocate ran]
      exact ih
  | cycled ran _ ih => exact ih.prepend (moments_of_collect ran)

/-! ## Allocations in a run -/

/-- Some allocation of a run answers a handle. -/
def HandsOut (collector : Collector Source Policy Hearer) (operations : List (Operation Roots))
    (handle : Handle) : Prop :=
  ∃ earlier roots size fieldCount later middle after,
    operations = earlier ++ .allocate roots size fieldCount :: later ∧
      collector.performAll earlier = .ok middle ∧
      middle.allocate roots size fieldCount = .ok (.ok handle, after)

theorem performAllRecorded_append {earlier later : List (Operation Roots)}
    {moments : List (Moment Source)}
    (ran : collector.performAllRecorded (earlier ++ later) = .ok (after, moments)) :
    ∃ middle first second, collector.performAllRecorded earlier = .ok (middle, first) ∧
      middle.performAllRecorded later = .ok (after, second) ∧ moments = first ++ second := by
  induction earlier generalizing collector moments with
  | nil => exact ⟨collector, [], moments, rfl, ran, rfl⟩
  | cons operation rest ih =>
      simp only [List.cons_append, performAllRecorded, Checked.bind_eq_ok_iff,
        Checked.pure_eq_ok_iff, Prod.mk.injEq] at ran ⊢
      obtain ⟨⟨next, now⟩, performed, ⟨final, more⟩, followed, rfl, rfl⟩ := ran
      obtain ⟨middle, first, second, before, behind, rfl⟩ := ih followed
      exact ⟨middle, now ++ first, second,
        ⟨(next, now), performed, (middle, first), before, rfl, rfl⟩, behind,
        (List.append_assoc ..).symm⟩

/-- What a run hands out is in its record. -/
theorem HandsOut.recorded {operations : List (Operation Roots)} {handle : Handle}
    {moments : List (Moment Source)} (handsOut : collector.HandsOut operations handle)
    (ran : collector.performAllRecorded operations = .ok (after, moments)) :
    ∃ count, .allocated handle count ∈ moments := by
  obtain ⟨earlier, roots, size, fieldCount, later, middle, next, rfl, performed, answered⟩ :=
    handsOut
  obtain ⟨reached, first, second, before, behind, rfl⟩ := performAllRecorded_append ran
  cases (performAll_eq_ok_iff.mpr ⟨first, before⟩).symm.trans performed
  simp only [performAllRecorded, performRecorded, Checked.bind_eq_ok_iff,
    Checked.pure_eq_ok_iff] at behind
  obtain ⟨⟨_, _⟩, ⟨⟨answer, _, placing⟩, allocated, placed⟩, ⟨_, _⟩, _, final⟩ := behind
  cases (allocate_eq_ok_iff.mpr ⟨placing, allocated⟩).symm.trans answered
  cases placed
  cases final
  have member := (records_of_allocation (allocation_of_allocate allocated)).mem_iff.mpr ⟨rfl, rfl⟩
  exact ⟨fieldCount, by simp [member]⟩

end Cycles

end Collector

end Tenure
