import Tenure.Proofs.Heap.Exhaustion
import Tenure.Proofs.Heap.Separation

/-!
# When promotions fail

An old space that lacks room for an object asks for half of its capacity at least, and never
for less. So a promotion fails exactly where this request exceeds the budget or the window of
the old space. The bytes that were lacking may have been there.
-/

set_option autoImplicit false

namespace Tenure.Heap

open WindowedMemory (window)

section Moments

variable {Source : Type} [MemorySource Source]

/-- A survivor comes next, and this is the heap that the moves before it have left. -/
def ComesTo (start : Heap Source) (target : Side) (survivors : List Handle) (handle : Handle)
    (current : Heap Source) : Prop :=
  ∃ seen rest evacuation, survivors = seen ++ handle :: rest ∧
    start.evacuateAll target seen = .ok evacuation ∧ current = evacuation.heap

/-- The old space has no place for so many bytes and does not get one. -/
def Unplaced (heap : Heap Source) (size : Nat) : Prop :=
  ∃ after, heap.placementInOld size = .ok (none, after)

/-- A survivor that is to go to the old space finds no place there. -/
def FailsToPromote (heap : Heap Source) (target : Side) (handle : Handle) : Prop :=
  ∃ record, heap.directory.get? handle = some record ∧ heap.PrefersOld target record ∧
    heap.Unplaced record.size

variable {start heap after current : Heap Source} {target : Side} {handle : Handle}
  {survivors : List Handle} {evacuation : Evacuation Source}

theorem StaysYoung.failed_iff {record : Record} {failed : Bool}
    (young : heap.StaysYoung target record failed after) :
    failed = true ↔ heap.PrefersOld target record ∧ heap.Unplaced record.size := by
  rcases young with ⟨undue, rfl, _⟩ | ⟨due, rfl, unplaced⟩
  · simp [undue]
  · simp [due, show heap.Unplaced record.size from ⟨after, unplaced⟩]

theorem Evacuates.failed_iff {fate : Fate} {failed : Bool}
    (step : heap.Evacuates target handle fate failed after) :
    failed = true ↔ heap.FailsToPromote target handle := by
  cases step with
  | stale unknown => simp [FailsToPromote, unknown]
  | promoted found _ placed => simp [FailsToPromote, found, Unplaced, placed]
  | copied found young _ => simp [FailsToPromote, found, young.failed_iff]
  | retained found young _ => simp [FailsToPromote, found, young.failed_iff]

theorem comesTo_concat {seen : List Handle} {other : Handle}
    (ran : start.evacuateAll target seen = .ok evacuation) :
    start.ComesTo target (seen ++ [handle]) other current ↔
      start.ComesTo target seen other current ∨
        (other = handle ∧ current = evacuation.heap) := by
  constructor
  · intro comes
    obtain ⟨before, rest, moves, split, moved, rfl⟩ := comes
    rcases Checked.split_concat_iff.mp split with ⟨_, rfl, rfl⟩ | ⟨between, _, rfl⟩
    · rw [ran, Except.ok.injEq] at moved
      exact .inr ⟨rfl, congrArg Evacuation.heap moved.symm⟩
    · exact .inl ⟨before, between, moves, rfl, moved, rfl⟩
  · intro comes
    rcases comes with ⟨before, rest, moves, rfl, moved, rfl⟩ | ⟨rfl, rfl⟩
    · exact ⟨before, rest ++ [handle], moves, by simp, moved, rfl⟩
    · exact ⟨seen, [], evacuation, rfl, ran, rfl⟩

theorem evacuateAll_concat {seen : List Handle} {fate : Fate} {failed : Bool}
    (ran : start.evacuateAll target seen = .ok evacuation)
    (moved : evacuation.heap.evacuate target handle = .ok (fate, failed, after)) :
    start.evacuateAll target (seen ++ [handle]) = .ok
      { heap := after
        fates := evacuation.fates.push (handle, fate)
        promotionFailed := evacuation.promotionFailed || failed } := by
  unfold evacuateAll at ran ⊢
  rw [List.foldlM_append]
  exact Checked.bind_of_eq_ok ran (Checked.bind_of_eq_ok (Checked.bind_of_eq_ok moved rfl) rfl)

/-- The moves of some survivors report a failure if one of them failed to be promoted. -/
theorem failed_of_evacuateAll (movable : start.Movable target survivors)
    (ran : start.evacuateAll target survivors = .ok evacuation) :
    evacuation.promotionFailed = true ↔ ∃ handle current,
      start.ComesTo target survivors handle current ∧ current.FailsToPromote target handle := by
  refine (evacuateAll_induction (fun seen moved =>
    start.evacuateAll target seen = .ok moved ∧
      (moved.promotionFailed = true ↔ ∃ handle current,
        start.ComesTo target seen handle current ∧ current.FailsToPromote target handle))
    movable ran ⟨rfl, by simp [ComesTo]⟩ ?_).2.2
  intro seen handle rest moved fate failed after split holds invariant unseen evacuated
  obtain ⟨ran, failed_iff⟩ := invariant
  refine ⟨evacuateAll_concat ran evacuated, ?_⟩
  simp only [Bool.or_eq_true, failed_iff, comesTo_concat ran,
    (evacuate_eq_ok holds.cards evacuated).failed_iff, or_and_right, exists_or]
  simp

/-- A survivor that comes next is where it was, and the old space has only grown. -/
theorem ComesTo.waits (comes : start.ComesTo target survivors handle current)
    (movable : start.Movable target survivors) :
    current.directory.get? handle = start.directory.get? handle ∧ start.Reshapes current ∧
      current.cards.Spans current.old ∧ current.directory.Fills .old current.old := by
  obtain ⟨seen, rest, evacuation, split, ran, rfl⟩ := comes
  have earlier : start.Movable target seen := (split ▸ movable).of_append
  have holds := evacuateAll_eq_ok earlier ran
  exact ⟨holds.waiting handle (movable.unseen split), reshapes_of_evacuateAll earlier ran,
    holds.cards, holds.fills .old (.inl rfl)⟩

/-- Nothing is moved before the only survivor. -/
theorem ComesTo.of_single {only : Handle}
    (comes : start.ComesTo target survivors handle current)
    (single : survivors.Sublist [only]) : handle = only ∧ current = start := by
  obtain ⟨seen, rest, evacuation, rfl, ran, rfl⟩ := comes
  have few := single.length_le
  simp only [List.length_append, List.length_cons, List.length_nil] at few
  obtain rfl : seen = [] := List.eq_nil_of_length_eq_zero (by omega)
  cases ran
  exact ⟨List.mem_singleton.mp (single.subset List.mem_cons_self), rfl⟩

end Moments

/-! ## Requests -/

variable {heap after : Heap WindowedMemory} {size budget : Nat}

/-- The bytes that the old space lacks to hold an object. -/
def shortage (heap : Heap WindowedMemory) (size : Nat) : Nat :=
  size - (heap.old.capacity - heap.old.used)

/-- The bytes that the old space asks for if it lacks any. -/
def request (heap : Heap WindowedMemory) (size : Nat) : Nat :=
  max size (heap.old.capacity / 2)

/-- With so many more bytes the old space would exceed the budget, or its window. -/
def Overdraws (heap : Heap WindowedMemory) (budget additional : Nat) : Prop :=
  budget < heap.memory.committed + additional ∨ window < heap.old.capacity + additional

/-- The old space takes an object if it has the room for it or is granted its request. -/
structure PlacesByRequest (heap : Heap WindowedMemory) (budget size : Nat) : Prop where
  answers : Checked.Answers (heap.placementInOld size)
  unplaced_iff : heap.Unplaced size ↔
    0 < heap.shortage size ∧ heap.Overdraws budget (heap.request size)
  unchanged : ∀ after, heap.placementInOld size = .ok (none, after) → after = heap
  exhausted : heap.Unplaced size →
    heap.Overdraws budget (heap.shortage size) ∨ heap.shortage size < heap.request size
  unplaced_of_exhausted : 0 < heap.shortage size →
    heap.Overdraws budget (heap.shortage size) → heap.Unplaced size

theorem shortage_le_request (heap : Heap WindowedMemory) (size : Nat) :
    heap.shortage size ≤ heap.request size := by
  unfold shortage request
  omega

theorem Overdraws.mono {fewer more : Nat} (overdraws : heap.Overdraws budget fewer)
    (larger : fewer ≤ more) : heap.Overdraws budget more := by
  unfold Overdraws at overdraws ⊢
  omega

theorem Windowed.exceeds_iff (windowed : heap.Windowed (some budget)) {additional : Nat} :
    heap.memory.Exceeds heap.old.capacity additional ↔ heap.Overdraws budget additional := by
  simp [WindowedMemory.Exceeds, Overdraws, windowed.budget_eq, or_comm]

theorem Refuses.unplaced (refuses : heap.Refuses size) (addressable : heap.Addressable)
    (spans : heap.cards.Spans heap.old) (fills : heap.directory.Fills .old heap.old)
    (whole : WholeGranules size) (small : size + granule < Word.limit) :
    heap.Unplaced size := by
  obtain ⟨⟨place, after⟩, ran⟩ := addressable.answers_placementInOld spans fills small
  cases place with
  | none => exact ⟨after, ran⟩
  | some place =>
      have full := refuses.full
      cases placesInOld_of_eq_ok ran with
      | room placed =>
          obtain ⟨rounded, fits, _⟩ := Arena.placement?_eq_some placed
          rw [whole.eq_of_alignSize rounded] at fits
          omega
      | grown _ rounded grew _ =>
          have less := (refuses.of_growOld spans grew).1
          rw [whole.eq_of_alignSize rounded] at less
          omega

theorem Windowed.placesByRequest (windowed : heap.Windowed (some budget))
    (addressable : heap.Addressable) (spans : heap.cards.Spans heap.old)
    (fills : heap.directory.Fills .old heap.old) (whole : WholeGranules size)
    (small : size + granule < Word.limit) : heap.PlacesByRequest budget size := by
  have inside : heap.old.used ≤ heap.old.capacity := fills.wellFormed.used_le
  have lacks : 0 < heap.shortage size ↔ heap.old.capacity < heap.old.used + size := by
    unfold shortage
    omega
  have refused : ∀ after, heap.placementInOld size = .ok (none, after) →
      after = heap ∧ heap.Refuses size :=
    fun after ran => (placesInOld_of_eq_ok ran).unplaced spans whole inside
  have unplaced_iff : heap.Unplaced size ↔
      0 < heap.shortage size ∧ heap.Overdraws budget (heap.request size) := by
    rw [lacks, ← windowed.exceeds_iff]
    constructor
    · intro unplaced
      obtain ⟨after, ran⟩ := unplaced
      obtain ⟨_, full, exceeds⟩ := refused after ran
      exact ⟨full, exceeds⟩
    · intro refuses
      exact Refuses.unplaced ⟨refuses.1, refuses.2⟩ addressable spans fills whole small
  refine
    { answers := addressable.answers_placementInOld spans fills small
      unplaced_iff
      unchanged := fun after ran => (refused after ran).1
      exhausted := fun unplaced => ?_
      unplaced_of_exhausted := fun lacking exhausted =>
        unplaced_iff.mpr ⟨lacking, exhausted.mono (heap.shortage_le_request size)⟩ }
  rcases (heap.shortage_le_request size).eq_or_lt with same | less
  · exact .inl (same ▸ (unplaced_iff.mp unplaced).2)
  · exact .inr less

/-! ## Minor cycles -/

/-- A minor cycle reports a failure exactly if some survivor fails to be promoted, and what
decides about each survivor is the request at its moment. -/
structure MinorStages.FailsByRequest (stages : MinorStages WindowedMemory)
    (heap : Heap WindowedMemory) (budget : Nat) (outcome : MinorOutcome) : Prop where
  failed_iff : outcome.promotionFailed = true ↔ ∃ handle current,
    (stages.swept heap).ComesTo heap.holding.other (stages.survivors heap) handle current ∧
      current.FailsToPromote heap.holding.other handle
  decided : ∀ handle current,
    (stages.swept heap).ComesTo heap.holding.other (stages.survivors heap) handle current →
      ∃ record, current.directory.get? handle = some record ∧
        current.PlacesByRequest budget record.size

theorem MinorStages.Run.failsByRequest {stages : MinorStages WindowedMemory}
    {roots : List Handle} {outcome : MinorOutcome} (run : stages.Run heap roots after)
    (reports : stages.Reports outcome) (ready : heap.Ready)
    (windowed : heap.Windowed (some budget)) : stages.FailsByRequest heap budget outcome := by
  have consistent := ready.sound.consistent
  have movable := run.movable consistent
  refine ⟨?_, fun handle current comes => ?_⟩
  · rw [reports.promotionFailed]
    exact failed_of_evacuateAll movable run.evacuated
  · obtain ⟨waiting, reshapes, spans, fills⟩ := comes.waits movable
    have member : handle ∈ stages.survivors heap := by
      obtain ⟨seen, rest, _, split, _⟩ := comes
      simp [split]
    have reached := (run.mem_survivors consistent).mp member
    obtain ⟨record, found, _⟩ := Directory.isYoung_iff.mp (run.young_of_reached reached)
    have swept := (run.get?_swept consistent).mpr ⟨found, .inr reached⟩
    have portable := run.portable ready.addressable consistent member swept
    have addressable := (ready.addressable.of_same run.sameSpaces_swept).of_reshapes reshapes
    have windowed := (windowed.of_same run.sameSpaces_swept).of_reshapes reshapes
    exact ⟨record, waiting.trans swept,
      windowed.placesByRequest addressable spans fills portable.whole portable.small⟩

/-- Whatever operations ran on a new heap with a budget, the next minor cycle fails to promote
an object exactly where the request of the old space exceeds the budget or the window. -/
theorem minorCycle_fails_by_request {settings : Settings} {initial : Heap WindowedMemory}
    {operations : List Operation} {marker next : Marker} {roots : List Handle}
    {answer : Answer MinorOutcome}
    (created : (create settings (WindowedMemory.fresh (some budget))).run = .ok (.ok initial))
    (performed : initial.performAll operations = .ok heap)
    (ran : heap.minorCycle marker roots = .ok (answer, after, next)) :
    ∃ outcome, answer = .ok outcome ∧ ∃ stages : MinorStages WindowedMemory,
      stages.Run heap roots after ∧ stages.FailsByRequest heap budget outcome := by
  obtain ⟨outcome, answered, stages, run, reports⟩ := minorCycle_reports ran
  have fresh := ready_of_create created
  have ready := fresh.performAll performed
  have windowed := windowed_of_performAll fresh (windowed_of_create created) performed
  exact ⟨outcome, answered, stages, run, run.failsByRequest reports ready windowed⟩

/-- The old space is filled by the first object. Half of its capacity is more than the second
one needs. -/
def halvingSettings : Settings :=
  { cardSize := 64
    edenSize := 256
    survivorRatio := 4
    oldSize := 256 }

def fillingOperations : List Operation :=
  [.allocate 256 0, .minorCycle .fresh [firstHandle], .allocate 64 0]

theorem minorCycle_fails_by_request_when_full :
    ∃ (initial heap after : Heap WindowedMemory) (next : Marker) (outcome : MinorOutcome)
      (stages : MinorStages WindowedMemory),
      (create halvingSettings (WindowedMemory.fresh (some 704))).run = .ok (.ok initial) ∧
      initial.performAll fillingOperations = .ok heap ∧
      heap.minorCycle .fresh [firstHandle, secondHandle] = .ok (.ok outcome, after, next) ∧
      outcome.promotionFailed = true ∧ stages.Run heap [firstHandle, secondHandle] after ∧
      stages.FailsByRequest heap 704 outcome := by
  obtain ⟨initial, heap, created, performed, yields⟩ := runs_of_leadsTo
    (show leadsTo halvingSettings (WindowedMemory.fresh (some 704)) fillingOperations
      (fun heap => heap.minorYields [firstHandle, secondHandle] fun outcome =>
        outcome.promotionFailed) = true by decide +kernel)
  obtain ⟨outcome, after, next, ran, failed⟩ := ran_of_minorYields yields
  obtain ⟨_, answered, stages, run, fails⟩ := minorCycle_fails_by_request created performed ran
  cases answered
  exact ⟨initial, heap, after, next, outcome, stages, created, performed, ran, failed, run, fails⟩

/-- The second object needs the 64 bytes that are left of the budget. It is refused them,
since the old space asks for 128. -/
theorem promotion_fails_within_budget :
    ∃ (initial heap after : Heap WindowedMemory) (next : Marker) (outcome : MinorOutcome)
      (stages : MinorStages WindowedMemory) (current : Heap WindowedMemory) (record : Record),
      (create halvingSettings (WindowedMemory.fresh (some 704))).run = .ok (.ok initial) ∧
      initial.performAll fillingOperations = .ok heap ∧
      heap.minorCycle .fresh [firstHandle, secondHandle] = .ok (.ok outcome, after, next) ∧
      outcome.promotionFailed = true ∧ stages.Run heap [firstHandle, secondHandle] after ∧
      (stages.swept heap).ComesTo heap.holding.other (stages.survivors heap) secondHandle
        current ∧
      current.directory.get? secondHandle = some record ∧
      current.PrefersOld heap.holding.other record ∧ current.Unplaced record.size ∧
      ¬ current.Overdraws 704 (current.shortage record.size) := by
  obtain ⟨initial, heap, created, performed, facts⟩ := runs_of_leadsTo
    (show leadsTo halvingSettings (WindowedMemory.fresh (some 704)) fillingOperations
      (fun heap => heap.minorYields [firstHandle, secondHandle] (fun outcome =>
          outcome.promotionFailed) &&
        decide (heap.youngHandles = [secondHandle]) &&
        (heap.directory.get? secondHandle).any fun record =>
          decide (heap.memory.committed + heap.shortage record.size ≤ 704 ∧
            heap.old.capacity + heap.shortage record.size ≤ window)) = true by decide +kernel)
  simp only [Bool.and_eq_true, decide_eq_true_eq, Option.any_eq_true] at facts
  obtain ⟨⟨yields, only⟩, record, found, admitted⟩ := facts
  obtain ⟨outcome, after, next, ran, failed⟩ := ran_of_minorYields yields
  obtain ⟨_, answered, stages, run, reports⟩ := minorCycle_reports ran
  cases answered
  have consistent := ((ready_of_create created).performAll performed).sound.consistent
  obtain ⟨handle, current, comes, same, sameFound, due, unplaced⟩ :=
    (failed_of_evacuateAll (run.movable consistent) run.evacuated).mp
      (reports.promotionFailed ▸ failed)
  have single : (stages.survivors heap).Sublist [secondHandle] := only ▸ List.filter_sublist
  obtain ⟨rfl, rfl⟩ := comes.of_single single
  have before := ((run.get?_swept consistent).mp sameFound).1
  rw [found, Option.some.injEq] at before
  subst before
  refine ⟨initial, heap, after, next, outcome, stages, stages.swept heap, record, created,
    performed, ran, failed, run, comes, sameFound, due, unplaced, fun overdraws => ?_⟩
  rcases overdraws with poor | wide
  · exact Nat.not_lt_of_le admitted.1 poor
  · exact Nat.not_lt_of_le admitted.2 wide

end Tenure.Heap
