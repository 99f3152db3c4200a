import Tenure.Proofs.Heap.Attainable
import Tenure.Proofs.Heap.Room

/-!
# The survivor spaces take turns

The survivor spaces have the same capacity, and between operations one of them is empty,
so it has room for whatever survives in the other one. Those survivors go first, hence
none of them is retained: the space that they leave is empty for the next minor cycle.
What is retained lies in eden, and a promotion has failed then.
-/

set_option autoImplicit false

namespace Tenure.Heap

variable {Source : Type} {heap after : Heap Source} {roots : List Handle}

/-- The empty survivor space can take over from the other one, and no object in eden has
survived a cycle. -/
structure Rotating (heap : Heap Source) : Prop where
  capacity : (heap.survivor heap.holding.other).capacity =
    (heap.survivor heap.holding).capacity
  vacant : (heap.survivor heap.holding.other).residents = #[]
  newborn : ∀ handle record, heap.directory.get? handle = some record →
    record.space = .eden → record.age = 0

theorem Rotating.unused (rotating : heap.Rotating) (consistent : heap.Consistent) :
    (heap.survivor heap.holding.other).used = 0 := by
  have used := (consistent.fills (.survivor heap.holding.other)).wellFormed.used_eq
  rw [Heap.arena, rotating.vacant] at used
  exact used

/-! ## Moving the survivors -/

namespace MinorStages.Run

variable [MemorySource Source] {stages : MinorStages Source} {handle : Handle}

theorem housed (run : stages.Run heap roots after) (consistent : heap.Consistent) :
    (stages.swept heap).Housed heap.holding.other (stages.survivors heap)
      stages.evacuation := by
  apply housed_of_evacuateAll (run.movable consistent) _ run.evacuated
  intro handle member
  have reached := (run.mem_survivors consistent).mp member
  obtain ⟨record, found, _⟩ := Directory.isYoung_iff.mp (run.young_of_reached reached)
  exact Directory.isLive_iff.mpr
    ⟨record, (run.get?_swept consistent).mpr ⟨found, .inr reached⟩⟩

/-- What survives in a space takes no more than the space has in use. -/
theorem storage_le_used (run : stages.Run heap roots after) (consistent : heap.Consistent)
    (space : Space) :
    stages.directory.storage ((heap.arena space).handles.filter stages.reached.contains) ≤
      (heap.arena space).used := by
  have fills := consistent.fills space
  rw [Arena.handles, List.filter_map, Directory.storage_residents, fills.wellFormed.used_eq]
  · exact extentOf_filter_le _ _
  · intro resident member
    obtain ⟨member, reached⟩ := List.mem_filter.mp member
    obtain ⟨record, found, place⟩ := fills.located resident member
    have swept := (run.get?_swept consistent).mpr ⟨found, .inr reached⟩
    rw [Directory.sizeOf_of_get? swept]
    exact congrArg (fun place => place.2.2) place

theorem room (run : stages.Run heap roots after) (consistent : heap.Consistent)
    (rotating : heap.Rotating) :
    (heap.survivor heap.holding.other).used + stages.directory.storage
        ((heap.survivor heap.holding).handles.filter stages.reached.contains) ≤
      (heap.survivor heap.holding.other).capacity := by
  rw [rotating.unused consistent, Nat.zero_add, rotating.capacity]
  calc
    _ ≤ (heap.survivor heap.holding).used := run.storage_le_used consistent (.survivor _)
    _ ≤ (heap.survivor heap.holding).capacity :=
      (consistent.fills (.survivor heap.holding)).wellFormed.used_le

theorem not_retained (run : stages.Run heap roots after) (consistent : heap.Consistent)
    (rotating : heap.Rotating) (member : handle ∈ (heap.survivor heap.holding).handles) :
    (handle, Fate.retained) ∉ stages.evacuation.fates.toList := by
  intro retained
  have reached := run.reached_of_fate consistent retained
  have same : (stages.swept heap).survivor heap.holding.other =
      heap.survivor heap.holding.other :=
    stages.arena_swept heap (.survivor heap.holding.other)
  have housed := run.housed consistent
  rw [MinorMarking.survivors, youngHandles, List.filter_append] at housed
  refine housed.not_mem_of_retained ?_ ?_ retained (List.mem_filter.mpr ⟨member, reached⟩)
  · rw [← List.filter_append]
    exact consistent.nodup_youngHandles.filter _
  · rw [same]
    exact run.room consistent rotating

theorem survivor_after (run : stages.Run heap roots after) (consistent : heap.Consistent) :
    after.survivor heap.holding =
      (heap.survivor heap.holding).slid stages.evacuation.retained.contains := by
  change after.arena (.survivor heap.holding) = (heap.arena (.survivor heap.holding)).slid _
  exact run.arena_after_left consistent (by simp)

theorem eden_after (run : stages.Run heap roots after) (consistent : heap.Consistent) :
    after.eden = heap.eden.slid stages.evacuation.retained.contains := by
  change after.arena .eden = (heap.arena .eden).slid _
  exact run.arena_after_left consistent (by simp)

theorem emptied (run : stages.Run heap roots after) (consistent : heap.Consistent)
    (rotating : heap.Rotating) : (after.survivor heap.holding).residents = #[] := by
  rw [← Arena.handles_eq_nil_iff, run.survivor_after consistent, Arena.handles_slid,
    List.filter_eq_nil_iff]
  intro handle member retained
  exact run.not_retained consistent rotating member (Evacuation.contains_retained.mp retained)

theorem swapped (run : stages.Run heap roots after) (consistent : heap.Consistent)
    (rotating : heap.Rotating) : after.holding = heap.holding.other := by
  rw [run.holding_after consistent, run.emptied consistent rotating]
  rfl

theorem capacity_target (run : stages.Run heap roots after) (consistent : heap.Consistent) :
    (after.survivor heap.holding.other).capacity =
      (heap.survivor heap.holding.other).capacity := by
  have apart : Space.survivor heap.holding.other ∉ [Space.eden, .survivor heap.holding] :=
    fun left => left_of_mem left (.inr rfl)
  have arena := (run.ends consistent).2.1 (.survivor heap.holding.other)
  rw [MinorStages.slid, arena_slidThrough (distinct_left heap), if_neg apart, Heap.arena,
    Heap.arena] at arena
  rw [arena, (run.housed consistent).capacity]
  exact congrArg Arena.capacity (stages.arena_swept heap (.survivor heap.holding.other))

/-- What lies in eden was retained there, with nothing but its address changed. -/
theorem origin_in_eden (run : stages.Run heap roots after) (consistent : heap.Consistent)
    {record : Record} (found : after.directory.get? handle = some record)
    (inEden : record.space = .eden) :
    (handle, Fate.retained) ∈ stages.evacuation.fates.toList ∧
      ∃ before address, heap.directory.get? handle = some before ∧ before.space = .eden ∧
        record = { before with address } := by
  obtain ⟨before, beforeFound, origin⟩ := run.origin_after consistent found
  rcases origin with ⟨old, rfl⟩ | ⟨_, fate, place, address, listed, rfl⟩
  · have inOld := (consistent.old_iff beforeFound).mp old
    simp [inEden] at inOld
  · cases fate with
    | retained => exact ⟨listed, before, address, beforeFound, inEden, rfl⟩
    | copied => simp [Record.evacuated, Fate.destination] at inEden
    | promoted early => simp [Record.evacuated, Fate.destination] at inEden

theorem rotating_after (run : stages.Run heap roots after) (consistent : heap.Consistent)
    (rotating : heap.Rotating) : after.Rotating where
  capacity := by
    rw [run.swapped consistent rotating, Side.other_other, run.capacity_target consistent,
      run.survivor_after consistent, Arena.capacity_slid, rotating.capacity]
  vacant := by
    rw [run.swapped consistent rotating, Side.other_other]
    exact run.emptied consistent rotating
  newborn := by
    intro handle record found inEden
    obtain ⟨_, before, address, beforeFound, wasInEden, rfl⟩ :=
      run.origin_in_eden consistent found inEden
    exact rotating.newborn handle before beforeFound wasInEden

end MinorStages.Run

/-! ## The other operations -/

theorem rotating_of_create [MemorySource Source] {settings : Settings} {memory : Source}
    (ran : (create settings memory).run = .ok (.ok heap)) : heap.Rotating := by
  obtain ⟨_, directory, arenas, _⟩ := create_eq_ok ran
  have survivors : ∀ side, ∃ base, heap.survivor side =
      Arena.empty (.survivor side) base settings.survivorSize.toNat :=
    fun side => arenas (.survivor side)
  obtain ⟨_, target⟩ := survivors heap.holding.other
  obtain ⟨_, source⟩ := survivors heap.holding
  refine ⟨by rw [target, source]; rfl, by rw [target]; rfl, fun handle record found => ?_⟩
  simp [directory] at found

theorem Rotating.of_survivors (rotating : heap.Rotating) (holding : after.holding = heap.holding)
    (survivors : ∀ side, after.survivor side = heap.survivor side)
    (newborn : ∀ handle record, after.directory.get? handle = some record →
      record.space = .eden → record.age = 0) : after.Rotating where
  capacity := by
    rw [holding, survivors, survivors]
    exact rotating.capacity
  vacant := by
    rw [holding, survivors]
    exact rotating.vacant
  newborn := newborn

theorem Rotating.tryAllocate (rotating : heap.Rotating) {size fieldCount : Nat}
    {placed : Option Handle} (ran : heap.tryAllocate size fieldCount = .ok (placed, after)) :
    after.Rotating := by
  rcases tryAllocate_eq_ok ran with ⟨_, rfl⟩ | ⟨handle, room, _, fresh, _, _, rfl⟩
  · exact rotating
  · refine rotating.of_survivors rfl (fun side => ?_) fun other record found inEden => ?_
    · cases side <;> rfl
    · rw [get?_withNew fresh] at found
      split at found
      · cases found
        rfl
      · exact rotating.newborn other record found inEden

theorem Rotating.store (rotating : heap.Rotating) {holder : Handle} {index : Nat}
    {value : Option Handle} {answer : Answer Unit}
    (ran : heap.store holder index value = .ok (answer, after)) : after.Rotating := by
  rcases store_eq_ok ran with ⟨_, _, rfl⟩ | ⟨_, _, _, cards, barrier, _, _, _, rfl⟩
  · exact rotating
  · refine rotating.of_survivors rfl (fun side => ?_) fun other record found inEden => ?_
    · cases side <;> rfl
    · rw [get?_withField] at found
      split at found
      · obtain ⟨earlier, earlierFound, rfl⟩ := Option.map_eq_some_iff.mp found
        exact rotating.newborn holder earlier earlierFound inEden
      · exact rotating.newborn other record found inEden

theorem Rotating.setThreshold (rotating : heap.Rotating) (threshold : Nat) :
    (heap.setThreshold threshold).2.Rotating := by
  unfold Heap.setThreshold
  split
  · refine rotating.of_survivors rfl (fun side => ?_) rotating.newborn
    cases side <;> rfl
  · exact rotating

theorem Rotating.majorCycle [MemorySource Source] (rotating : heap.Rotating) (sound : heap.Sound)
    {marker next : Marker} {answer : Answer MajorOutcome}
    (ran : heap.majorCycle marker roots = .ok (answer, after, next)) : after.Rotating := by
  obtain ⟨_, _, stages, run⟩ := majorCycle_eq_ok ran
  have holding := run.holding_after sound
  have survivors : ∀ side, after.survivor side =
      (heap.survivor side).slid stages.directory.isLive := by
    intro side
    change after.arena (.survivor side) = (heap.arena (.survivor side)).slid _
    exact run.arena_after sound (by simp)
  refine ⟨?_, ?_, fun handle record found inEden => ?_⟩
  · rw [holding, survivors, survivors, Arena.capacity_slid, Arena.capacity_slid]
    exact rotating.capacity
  · rw [holding, survivors, ← Arena.handles_eq_nil_iff, Arena.handles_slid,
      Arena.handles_eq_nil_iff.mpr rotating.vacant]
    rfl
  · rw [(run.ends sound).2.1] at found
    obtain ⟨before, address, beforeFound, _, rfl⟩ := run.origin sound.consistent found
    exact rotating.newborn handle before beforeFound inEden

theorem Rotating.perform [MemorySource Source] (rotating : heap.Rotating) (sound : heap.Sound)
    {operation : Operation} (ran : heap.perform operation = .ok after) : after.Rotating := by
  cases perform_eq_ok ran with
  | allocate ran => exact rotating.tryAllocate ran
  | store ran => exact rotating.store ran
  | minorCycle ran =>
      obtain ⟨_, stages, run⟩ := minorCycle_eq_ok ran
      exact run.rotating_after sound.consistent rotating
  | majorCycle ran => exact rotating.majorCycle sound ran
  | setThreshold threshold => exact rotating.setThreshold threshold

theorem Attainable.rotating [MemorySource Source] (attainable : heap.Attainable) :
    heap.Rotating := by
  obtain ⟨settings, memory, initial, operations, created, performed⟩ := attainable
  refine (Checked.foldlM_induction
    (fun _ current => Heap.Sound current ∧ Heap.Rotating current) performed
    ⟨sound_of_create created, rotating_of_create created⟩ ?_).2
  intro seen operation rest current next split holds stepped
  exact ⟨holds.1.perform stepped, holds.2.perform holds.1 stepped⟩

/-! ## What is retained -/

/-- The space of the survivors is emptied and waits for the next minor cycle. What is
retained stays in eden in its order, as if it had not survived. -/
structure Vacates (heap : Heap Source) (outcome : MinorOutcome) (after : Heap Source) :
    Prop where
  moved : ∀ handle ∈ (heap.survivor heap.holding).handles, ∀ record,
    after.directory.get? handle = some record →
      record.space = .survivor heap.holding.other ∨ record.space = .old
  emptied : (after.survivor heap.holding).residents = #[]
  swapped : after.holding = heap.holding.other
  ordered : after.eden.handles.Sublist heap.eden.handles
  kept : ∀ handle ∈ after.eden.handles, ∃ before address,
    heap.directory.get? handle = some before ∧ before.space = .eden ∧ before.age = 0 ∧
      after.directory.get? handle = some { before with address }
  retained_eq : outcome.retained = after.eden.handles.length
  failed_of_retained : outcome.retained ≠ 0 → outcome.promotionFailed = true
  cleared_of_promoted : outcome.promotionFailed = false → after.eden.residents = #[]

namespace MinorStages.Run

variable [MemorySource Source] {stages : MinorStages Source} {handle : Handle}

theorem mem_eden_after (run : stages.Run heap roots after) (consistent : heap.Consistent)
    (rotating : heap.Rotating) : handle ∈ after.eden.handles ↔
      (handle, Fate.retained) ∈ stages.evacuation.fates.toList := by
  rw [run.eden_after consistent, Arena.handles_slid, List.mem_filter,
    Evacuation.contains_retained]
  refine ⟨fun both => both.2, fun retained => ⟨?_, retained⟩⟩
  have young := run.young_of_reached (run.reached_of_fate consistent retained)
  rcases List.mem_append.mp ((run.mem_youngHandles consistent).mpr young) with survivor | inEden
  · exact absurd retained (run.not_retained consistent rotating survivor)
  · exact inEden

theorem length_eden_after (run : stages.Run heap roots after) (consistent : heap.Consistent)
    (rotating : heap.Rotating) :
    after.eden.handles.length = stages.evacuation.count .retained := by
  have distinct : after.eden.handles.Nodup :=
    ((run.consistent_after consistent).fills .eden).distinct
  have fated : (stages.evacuation.fates.toList.map Prod.fst).Nodup := by
    rw [(run.evacuating consistent).handled]
    exact (run.movable consistent).distinct
  -- Both lists are without repeats and have the same members.
  have listed : ((stages.evacuation.fates.toList.filter fun entry =>
      entry.2 = .retained).map Prod.fst).Perm after.eden.handles := by
    refine (List.perm_ext_iff_of_nodup
      ((List.filter_sublist.map Prod.fst).nodup fated) distinct).mpr fun handle => ?_
    rw [run.mem_eden_after consistent rotating]
    simp
  rw [← listed.length_eq, List.length_map, ← List.countP_eq_length_filter,
    Evacuation.count, ← Array.countP_toList]

theorem vacates (run : stages.Run heap roots after) (consistent : heap.Consistent)
    (rotating : heap.Rotating) {outcome : MinorOutcome} (reports : stages.Reports outcome) :
    heap.Vacates outcome after := by
  have failed : ∀ handle ∈ after.eden.handles, outcome.promotionFailed = true := by
    intro handle member
    rw [reports.promotionFailed]
    exact ((run.housed consistent).retained handle
      ((run.mem_eden_after consistent rotating).mp member)).1
  have retained_eq : outcome.retained = after.eden.handles.length := by
    rw [reports.retained, run.length_eden_after consistent rotating]
  refine
    { moved := fun handle member record found => ?_
      emptied := run.emptied consistent rotating
      swapped := run.swapped consistent rotating
      ordered := ?_
      kept := fun handle member => ?_
      retained_eq
      failed_of_retained := fun retains => ?_
      cleared_of_promoted := fun promoted => ?_ }
  · obtain ⟨before, beforeFound, here⟩ :=
      (consistent.fills (.survivor heap.holding)).mem_handles_iff.mp member
    obtain ⟨same, sameFound, origin⟩ := run.origin_after consistent found
    rw [beforeFound, Option.some.injEq] at sameFound
    subst sameFound
    rcases origin with ⟨old, _⟩ | ⟨_, fate, place, address, listed, rfl⟩
    · rw [consistent.old_iff beforeFound, here] at old
      cases old
    · cases fate with
      | copied => exact .inl rfl
      | promoted early => exact .inr rfl
      | retained => exact absurd listed (run.not_retained consistent rotating member)
  · rw [run.eden_after consistent, Arena.handles_slid]
    exact List.filter_sublist
  · obtain ⟨record, found, inEden⟩ :=
      ((run.consistent_after consistent).fills .eden).mem_handles_iff.mp member
    obtain ⟨_, before, address, beforeFound, wasInEden, rfl⟩ :=
      run.origin_in_eden consistent found inEden
    exact ⟨before, address, beforeFound, wasInEden,
      rotating.newborn handle before beforeFound wasInEden, found⟩
  · rw [retained_eq] at retains
    obtain ⟨handle, member⟩ := List.exists_mem_of_length_pos (Nat.pos_of_ne_zero retains)
    exact failed handle member
  · rw [← Arena.handles_eq_nil_iff, List.eq_nil_iff_forall_not_mem]
    intro handle member
    rw [failed handle member] at promoted
    cases promoted

end MinorStages.Run

/-- After any operations the survivor space that receives is empty, and a minor cycle
empties the other one. -/
theorem minorCycle_vacates [MemorySource Source] (attainable : heap.Attainable) :
    (heap.survivor heap.holding.other).residents = #[] ∧
      ∀ marker roots answer after next,
        heap.minorCycle marker roots = .ok (answer, after, next) →
        ∃ outcome, answer = .ok outcome ∧ heap.Vacates outcome after := by
  refine ⟨attainable.rotating.vacant, fun _ _ _ _ _ ran => ?_⟩
  obtain ⟨outcome, answered, stages, run, reports⟩ := minorCycle_reports ran
  exact ⟨outcome, answered, run.vacates attainable.sound.consistent attainable.rotating reports⟩

/-! ## A crowded run -/

/-- The survivor spaces take two of the three objects, and the old space none. -/
def crowdedSettings : Settings :=
  { cardSize := 64
    promotionThreshold := 2
    edenSize := 256
    survivorRatio := 2
    oldSize := 8 }

def crowdedRoots : List Handle := [firstHandle, secondHandle, thirdHandle]

/-- The full survivor space is emptied although no promotion succeeds. -/
theorem minorCycle_vacates_when_crowded :
    ∃ (heap after : Heap WindowedMemory) (outcome : MinorOutcome) (next : Marker),
      heap.Attainable ∧ (heap.survivor heap.holding).handles = [firstHandle, secondHandle] ∧
        heap.minorCycle .fresh crowdedRoots = .ok (.ok outcome, after, next) ∧
        outcome.retained = 1 ∧ heap.Vacates outcome after := by
  obtain ⟨heap, attainable, facts⟩ := attainable_of_leadsTo
    (show leadsTo crowdedSettings (WindowedMemory.fresh (some 520))
      [.allocate 64 0, .allocate 64 0, .allocate 64 0, .minorCycle .fresh crowdedRoots]
      (fun heap =>
        decide ((heap.survivor heap.holding).handles = [firstHandle, secondHandle]) &&
          (heap.minorCycle .fresh crowdedRoots).toOption.any fun answered =>
            answered.1.toOption.any fun outcome => outcome.retained == 1) = true
      by decide +kernel)
  rw [Bool.and_eq_true, decide_eq_true_eq] at facts
  obtain ⟨full, facts⟩ := facts
  obtain ⟨⟨_, after, next⟩, ran, facts⟩ := Checked.eq_ok_of_any facts
  obtain ⟨outcome, rfl, vacates⟩ := (minorCycle_vacates attainable).2 _ _ _ _ _ ran
  exact ⟨heap, after, outcome, next, attainable, full, ran,
    by simpa [Except.toOption] using facts, vacates⟩

end Tenure.Heap
