import Tenure.Proofs.Directory.Accounts
import Tenure.Proofs.Heap.Rotation

/-!
# Where survivors go

The age of a survivor decides where a minor cycle moves it, as long as the spaces have
room: an old enough one goes to the old space, and the others are copied. A survivor that
would fill the receiving space above its ceiling is promoted early, and one that the old
space cannot take is copied once more. The ceiling counts what was copied before, so the
destination of a survivor depends on all survivors before it.
-/

set_option autoImplicit false

namespace Tenure

/-- Whether an object lives in a space. -/
def Directory.isIn (directory : Directory) (space : Space) (handle : Handle) : Bool :=
  (directory.get? handle).any fun record => record.space = space

theorem Directory.isIn_of_get? {directory : Directory} {handle : Handle} {record : Record}
    (found : directory.get? handle = some record) (space : Space) :
    directory.isIn space handle = decide (record.space = space) := by
  rw [isIn, found]
  rfl

theorem Directory.isLive_of_isIn {directory : Directory} {space : Space} {handle : Handle}
    (inside : directory.isIn space handle = true) : directory.isLive handle = true := by
  obtain ⟨record, found, _⟩ := Option.any_eq_true _ _ |>.mp inside
  exact isLive_iff.mpr ⟨record, found⟩

namespace Heap

variable {Source : Type} {heap after : Heap Source} {handle : Handle} {record : Record}

/-- A young object with its records before and after a minor cycle that it survives. -/
structure Survives (heap after : Heap Source) (handle : Handle) (before record : Record) :
    Prop where
  found : heap.directory.get? handle = some before
  young : before.generation ≠ .old
  kept : after.directory.get? handle = some record

/-- One young object comes before another: the older survivors come first, and objects of
one space in address order. -/
def Precedes (heap : Heap Source) (first second : Handle) : Prop :=
  ∃ one two, heap.directory.get? first = some one ∧ heap.directory.get? second = some two ∧
    ((one.space = .survivor heap.holding ∧ two.space = .eden) ∨
      (one.space = two.space ∧ one.address < two.address))

/-- The bytes that a minor cycle copied before it came to an object. -/
def copiedBefore (heap after : Heap Source) (handle : Handle) : Nat :=
  heap.directory.storage ((heap.youngHandles.takeWhile fun other => other ≠ handle).filter
    (after.directory.isIn (.survivor heap.holding.other)))

/-- The survivors of a minor cycle that are not old enough for the old space. -/
def youngerSurvivors (heap after : Heap Source) : List Handle :=
  heap.youngHandles.filter fun handle => after.directory.isLive handle &&
    (heap.directory.get? handle).any fun before => before.nextAge < heap.threshold

/-- The bytes that survivors may take of the space that receives them. -/
def survivorCeiling (heap : Heap Source) : Nat :=
  (heap.survivor heap.holding.other).ceiling heap.settings.survivorOccupancyLimit

/-- Where the survivors of a minor cycle go, by their ages and by the room that is left. -/
structure PromotesByAge (heap : Heap Source) (outcome : MinorOutcome) (after : Heap Source) :
    Prop where
  listed : ∀ handle, handle ∈ heap.youngHandles ↔ heap.directory.isYoung handle = true
  ordered : heap.youngHandles.Pairwise heap.Precedes
  moved : ∀ handle before record, heap.Survives after handle before record →
    (record.space = .eden ∧ ∃ address, record = { before with address }) ∨
      (record.age = min (before.age + 1) maxAge ∧
        (record.space = .survivor heap.holding.other ∨ record.space = .old))
  late : ∀ handle before record, heap.Survives after handle before record →
    record.space = .survivor heap.holding.other → heap.threshold ≤ record.age →
    outcome.promotionFailed = true
  early : ∀ handle before record, heap.Survives after handle before record →
    record.space = .old → record.age < heap.threshold →
    heap.survivorCeiling < heap.copiedBefore after handle + before.size
  overflowPromoted : outcome.overflowPromoted = heap.youngHandles.countP fun handle =>
    (after.directory.get? handle).any fun record =>
      record.space = .old && record.age < heap.threshold
  promoted : outcome.promoted = heap.youngHandles.countP fun handle =>
    (after.directory.get? handle).any fun record =>
      record.space = .old && heap.threshold ≤ record.age
  roomy : outcome.promotionFailed = false →
    heap.directory.storage (heap.youngerSurvivors after) ≤ heap.survivorCeiling →
    (∀ handle before record, heap.Survives after handle before record →
      (record.space = .old ↔ heap.threshold ≤ min (before.age + 1) maxAge)) ∧
      outcome.overflowPromoted = 0 ∧ outcome.retained = 0

/-! ## The order of the survivors -/

/-- Objects of one space are listed in address order. -/
theorem Consistent.ordered_handles (consistent : heap.Consistent) (space : Space) :
    (heap.arena space).handles.Pairwise fun first second =>
      ∃ one two, heap.directory.get? first = some one ∧ heap.directory.get? second = some two ∧
        one.space = space ∧ two.space = space ∧ one.address < two.address := by
  have fills := consistent.fills space
  rw [Arena.handles, List.pairwise_map]
  refine List.Pairwise.imp_of_mem ?_ fills.wellFormed.packed.pairwise
  intro first second member later apart
  obtain ⟨one, found, place⟩ := fills.located first member
  obtain ⟨two, secondFound, secondPlace⟩ := fills.located second later
  have positive := (fills.wellFormed.whole first member).1
  simp only [Record.place, Prod.mk.injEq] at place secondPlace
  refine ⟨one, two, found, secondFound, place.1, secondPlace.1, ?_⟩
  simp only [Resident.finish] at apart
  omega

theorem Consistent.ordered_youngHandles (consistent : heap.Consistent) :
    heap.youngHandles.Pairwise heap.Precedes := by
  have within : ∀ space, (heap.arena space).handles.Pairwise heap.Precedes := fun space =>
    (consistent.ordered_handles space).imp fun ordered => by
      obtain ⟨one, two, found, secondFound, first, second, lower⟩ := ordered
      exact ⟨one, two, found, secondFound, .inr ⟨first.trans second.symm, lower⟩⟩
  refine List.pairwise_append.mpr ⟨within (.survivor heap.holding), within .eden, ?_⟩
  intro first member second later
  obtain ⟨one, found, survivor⟩ :=
    (consistent.fills (.survivor heap.holding)).mem_handles_iff.mp member
  obtain ⟨two, secondFound, eden⟩ := (consistent.fills .eden).mem_handles_iff.mp later
  exact ⟨one, two, found, secondFound, .inl ⟨survivor, eden⟩⟩

private theorem takeWhile_ne {before rest : List Handle}
    (distinct : (before ++ handle :: rest).Nodup) :
    (before ++ handle :: rest).takeWhile (fun other => other ≠ handle) = before := by
  have apart : ∀ other ∈ before, decide (other ≠ handle) = true := by
    intro other member
    rw [decide_eq_true_eq]
    exact (List.nodup_append.mp distinct).2.2 other member handle List.mem_cons_self
  rw [List.takeWhile_append_of_pos apart, List.takeWhile_cons_of_neg (by simp), List.append_nil]

/-! ## A minor cycle -/

theorem MinorMarking.ceiling_swept {marking : MinorMarking} :
    ((marking.swept heap).survivor heap.holding.other).ceiling
      (marking.swept heap).settings.survivorOccupancyLimit = heap.survivorCeiling :=
  congrArg (Arena.ceiling · heap.settings.survivorOccupancyLimit)
    (marking.arena_swept heap (.survivor heap.holding.other))

namespace MinorStages.Run

variable [MemorySource Source] {stages : MinorStages Source} {roots : List Handle} {fate : Fate}

theorem get?_after_of_fate (run : stages.Run heap roots after) (consistent : heap.Consistent)
    (found : heap.directory.get? handle = some record)
    (listed : (handle, fate) ∈ stages.evacuation.fates.toList) :
    ∃ place address, after.directory.get? handle =
      some { record.evacuated (fate.destination heap.holding.other) place with address } := by
  obtain ⟨place, evacuated⟩ := run.get?_evacuated_young consistent found listed
  obtain ⟨address, slid, _⟩ := run.get?_after consistent evacuated
  exact ⟨place, address, slid⟩

/-- A survivor with its fate, which says where it lives after the cycle. -/
theorem exists_fate_of_survives (run : stages.Run heap roots after)
    (consistent : heap.Consistent) {before : Record}
    (survives : heap.Survives after handle before record) :
    ∃ fate place address, (handle, fate) ∈ stages.evacuation.fates.toList ∧
      record = { before.evacuated (fate.destination heap.holding.other) place with address } := by
  obtain ⟨same, sameFound, ⟨old, _⟩ | ⟨_, fate, place, address, listed, moved⟩⟩ :=
    run.origin_after consistent survives.kept
  · rw [survives.found, Option.some.injEq] at sameFound
    exact absurd (sameFound ▸ old) survives.young
  · rw [survives.found, Option.some.injEq] at sameFound
    subst sameFound
    exact ⟨fate, place, address, listed, moved⟩

theorem survives_of_fate (run : stages.Run heap roots after) (consistent : heap.Consistent)
    (listed : (handle, fate) ∈ stages.evacuation.fates.toList) :
    ∃ before place address, heap.Survives after handle before
      { before.evacuated (fate.destination heap.holding.other) place with address } := by
  have young := run.young_of_reached (run.reached_of_fate consistent listed)
  obtain ⟨before, found, young⟩ := Directory.isYoung_iff.mp young
  obtain ⟨place, address, kept⟩ := run.get?_after_of_fate consistent found listed
  exact ⟨before, place, address, found, young, kept⟩

theorem isIn_target (run : stages.Run heap roots after) (consistent : heap.Consistent)
    (listed : (handle, fate) ∈ stages.evacuation.fates.toList) :
    after.directory.isIn (.survivor heap.holding.other) handle = decide (fate = .copied) := by
  obtain ⟨before, place, address, survives⟩ := run.survives_of_fate consistent listed
  rw [Directory.isIn_of_get? survives.kept]
  cases fate with
  | copied => simp [Record.evacuated, Fate.destination]
  | promoted early => simp [Record.evacuated, Fate.destination]
  | retained =>
      have elsewhere := run.space_ne_target consistent survives.found
      simp [Record.evacuated, Fate.destination, elsewhere]

/-- What lives after the cycle among the young objects has survived it. -/
theorem reached_of_isLive_after (run : stages.Run heap roots after)
    (consistent : heap.Consistent) (member : handle ∈ heap.youngHandles)
    (live : after.directory.isLive handle = true) : stages.reached.contains handle = true := by
  rcases ((run.isLive_after_iff consistent).mp live).2 with old | reached
  · obtain ⟨record, found, old⟩ := Directory.generation?_eq_some_iff.mp old
    have young := (run.mem_youngHandles consistent).mp member
    exact absurd old (Directory.generation_ne_old young found)
  · exact reached

/-- A count over the fates is a count over the young objects. -/
theorem count_eq_countP (run : stages.Run heap roots after) (consistent : heap.Consistent)
    (fate : Fate) (holds : Record → Bool)
    (fated : ∀ handle other before record, (handle, other) ∈ stages.evacuation.fates.toList →
      heap.Survives after handle before record → holds record = decide (other = fate)) :
    stages.evacuation.count fate =
      heap.youngHandles.countP fun handle => (after.directory.get? handle).any holds := by
  have handled : stages.evacuation.fates.toList.map Prod.fst =
      heap.youngHandles.filter stages.reached.contains := (run.evacuating consistent).handled
  have kept : heap.youngHandles.countP (fun handle => (after.directory.get? handle).any holds) =
      (heap.youngHandles.filter stages.reached.contains).countP
        fun handle => (after.directory.get? handle).any holds := by
    rw [List.countP_filter]
    refine List.countP_congr fun handle member => ?_
    rw [Bool.and_eq_true, iff_self_and]
    intro holding
    obtain ⟨record, found, _⟩ := (Option.any_eq_true _ _).mp holding
    exact run.reached_of_isLive_after consistent member (Directory.isLive_iff.mpr ⟨record, found⟩)
  rw [kept, ← handled, List.countP_map, Evacuation.count, ← Array.countP_toList]
  refine List.countP_congr fun moved listed => ?_
  obtain ⟨handle, other⟩ := moved
  obtain ⟨before, place, address, survives⟩ := run.survives_of_fate consistent listed
  have same := fated handle other before _ listed survives
  simp only [Function.comp_apply, survives.kept, Option.any_some, same]

/-- The survivors that were copied before an object are those before it that live in the
receiving space. -/
theorem copiedBefore_eq (run : stages.Run heap roots after) (consistent : heap.Consistent)
    {before rest : List (Handle × Fate)}
    (split : stages.evacuation.fates.toList = before ++ (handle, fate) :: rest) :
    heap.copiedBefore after handle = stages.directory.storage (copiedAmong before) := by
  have handled : stages.evacuation.fates.toList.map Prod.fst =
      heap.youngHandles.filter stages.reached.contains := (run.evacuating consistent).handled
  rw [split, List.map_append, List.map_cons, eq_comm, List.filter_eq_append_iff] at handled
  -- The young objects before this one are `first`, whose survivors have the fates `before`,
  -- and `skipped`, of which none survives.
  obtain ⟨first, tail, young, early, late⟩ := handled
  obtain ⟨skipped, last, rfl, unreached, _, _⟩ := List.filter_eq_cons_iff.mp late
  rw [← List.append_assoc] at young
  have distinct := consistent.nodup_youngHandles
  rw [young] at distinct
  have subset : ∀ other ∈ first ++ skipped, other ∈ heap.youngHandles := by
    intro other member
    rw [young]
    exact List.mem_append_left _ member
  have reached : (first ++ skipped).filter stages.reached.contains = before.map Prod.fst := by
    rw [List.filter_append, early, List.filter_eq_nil_iff.mpr unreached, List.append_nil]
  have copied : (first ++ skipped).filter
      (after.directory.isIn (.survivor heap.holding.other)) = copiedAmong before := by
    calc (first ++ skipped).filter (after.directory.isIn (.survivor heap.holding.other))
      _ = ((first ++ skipped).filter stages.reached.contains).filter
            (after.directory.isIn (.survivor heap.holding.other)) := by
          rw [List.filter_filter]
          refine List.filter_congr fun other member => ?_
          rw [Bool.eq_iff_iff, Bool.and_eq_true, iff_self_and]
          exact fun inside => run.reached_of_isLive_after consistent (subset other member)
            (Directory.isLive_of_isIn inside)
      _ = copiedAmong before := by
          rw [reached, List.filter_map, copiedAmong]
          refine congrArg (List.map Prod.fst) (List.filter_congr fun entry member => ?_)
          exact run.isIn_target consistent (split ▸ List.mem_append_left _ member)
  rw [copiedBefore, young, takeWhile_ne distinct, copied]
  refine (Directory.storage_congr fun other member => ?_).symm
  obtain ⟨⟨_, _⟩, listed, rfl⟩ := List.mem_map.mp member
  have fated := run.reached_of_fate consistent
    (split ▸ List.mem_append_left _ (List.mem_filter.mp listed).1)
  obtain ⟨record, found, _⟩ := Directory.isYoung_iff.mp (run.young_of_reached fated)
  rw [Directory.sizeOf_of_get? found,
    Directory.sizeOf_of_get? ((run.get?_swept consistent).mpr ⟨found, .inr fated⟩)]

theorem promotion_failed_of_late (run : stages.Run heap roots after)
    (consistent : heap.Consistent) {before : Record}
    (survives : heap.Survives after handle before record)
    (copied : record.space = .survivor heap.holding.other)
    (aged : heap.threshold ≤ before.nextAge) : stages.evacuation.promotionFailed = true := by
  obtain ⟨fate, place, address, listed, rfl⟩ := run.exists_fate_of_survives consistent survives
  have reached := run.reached_of_fate consistent listed
  have swept := (run.get?_swept consistent).mpr ⟨survives.found, .inr reached⟩
  cases fate with
  | copied => exact (run.housed consistent).late handle before listed swept aged
  | promoted early => simp [Record.evacuated, Fate.destination] at copied
  | retained =>
      exact absurd (show before.space = _ from copied)
        (run.space_ne_target consistent survives.found)

/-- Whether a survivor was promoted in time or early follows from its age. -/
theorem early_eq (run : stages.Run heap roots after) (consistent : heap.Consistent)
    {before : Record} {early : Bool}
    (listed : (handle, Fate.promoted early) ∈ stages.evacuation.fates.toList)
    (found : heap.directory.get? handle = some before) :
    early = decide (before.nextAge < heap.threshold) :=
  ((run.housed consistent).early handle before early listed ((run.get?_swept consistent).mpr
    ⟨found, .inr (run.reached_of_fate consistent listed)⟩)).1

theorem overflows_of_early (run : stages.Run heap roots after) (consistent : heap.Consistent)
    (rotating : heap.Rotating) {before : Record}
    (survives : heap.Survives after handle before record) (old : record.space = .old)
    (young : before.nextAge < heap.threshold) :
    heap.survivorCeiling < heap.copiedBefore after handle + before.size := by
  obtain ⟨fate, place, address, listed, rfl⟩ := run.exists_fate_of_survives consistent survives
  have reached := run.reached_of_fate consistent listed
  have swept := (run.get?_swept consistent).mpr ⟨survives.found, .inr reached⟩
  cases fate with
  | copied => simp [Record.evacuated, Fate.destination] at old
  | retained =>
      exact absurd ((consistent.old_iff survives.found).mpr old) survives.young
  | promoted early =>
      obtain ⟨decided, overflows⟩ :=
        (run.housed consistent).early handle before early listed swept
      obtain ⟨earlier, rest, split, exceeds⟩ :=
        overflows (decided.trans (decide_eq_true young))
      have unused : ((stages.swept heap).survivor heap.holding.other).used = 0 :=
        (congrArg Arena.used (stages.arena_swept heap (.survivor heap.holding.other))).trans
          (rotating.unused consistent)
      rw [MinorMarking.ceiling_swept, unused, Nat.zero_add] at exceeds
      rw [run.copiedBefore_eq consistent split]
      exact exceeds

theorem mem_youngerSurvivors (run : stages.Run heap roots after) (consistent : heap.Consistent)
    {before : Record} (survives : heap.Survives after handle before record)
    (younger : before.nextAge < heap.threshold) : handle ∈ heap.youngerSurvivors after := by
  refine List.mem_filter.mpr ⟨(run.mem_youngHandles consistent).mpr
    (Directory.isYoung_iff.mpr ⟨before, survives.found, survives.young⟩), ?_⟩
  rw [Directory.isLive_iff.mpr ⟨record, survives.kept⟩, survives.found]
  simpa using younger

/-- If no promotion fails, an object that is not old enough and what was copied before it are
survivors that are not. -/
theorem copiedBefore_le (run : stages.Run heap roots after) (consistent : heap.Consistent)
    (promotes : stages.evacuation.promotionFailed = false) {before : Record}
    (survives : heap.Survives after handle before record)
    (younger : before.nextAge < heap.threshold) :
    heap.copiedBefore after handle + before.size ≤
      heap.directory.storage (heap.youngerSurvivors after) := by
  have young := (run.mem_youngHandles consistent).mpr
    (Directory.isYoung_iff.mpr ⟨before, survives.found, survives.young⟩)
  obtain ⟨earlier, rest, split⟩ := List.append_of_mem young
  have distinct := consistent.nodup_youngHandles
  rw [split] at distinct
  have copied : ∀ other ∈ earlier,
      after.directory.isIn (.survivor heap.holding.other) other = true →
      other ∈ heap.youngerSurvivors after := by
    intro other member inside
    have listed : other ∈ heap.youngHandles := split ▸ List.mem_append_left _ member
    obtain ⟨otherBefore, found, otherYoung⟩ :=
      Directory.isYoung_iff.mp ((run.mem_youngHandles consistent).mp listed)
    obtain ⟨otherRecord, kept⟩ := Directory.isLive_iff.mp (Directory.isLive_of_isIn inside)
    rw [Directory.isIn_of_get? kept, decide_eq_true_eq] at inside
    have otherSurvives : heap.Survives after other otherBefore otherRecord :=
      ⟨found, otherYoung, kept⟩
    refine run.mem_youngerSurvivors consistent otherSurvives ?_
    by_contra aged
    rw [run.promotion_failed_of_late consistent otherSurvives inside (by omega)] at promotes
    cases promotes
  have contained : earlier.filter (after.directory.isIn (.survivor heap.holding.other)) ++
      [handle] ⊆ heap.youngerSurvivors after := by
    intro other member
    rcases List.mem_append.mp member with inTarget | itself
    · obtain ⟨member, inside⟩ := List.mem_filter.mp inTarget
      exact copied other member inside
    · rw [List.mem_singleton.mp itself]
      exact run.mem_youngerSurvivors consistent survives younger
  have once : (earlier.filter (after.directory.isIn (.survivor heap.holding.other)) ++
      [handle]).Nodup :=
    distinct.sublist (List.filter_sublist.append (List.singleton_sublist.mpr List.mem_cons_self))
  calc heap.copiedBefore after handle + before.size
    _ = heap.directory.storage
          (earlier.filter (after.directory.isIn (.survivor heap.holding.other)) ++ [handle]) := by
        rw [copiedBefore, split, takeWhile_ne distinct, Directory.storage_append,
          Directory.storage_cons, Directory.storage_nil, Directory.sizeOf_of_get? survives.found,
          Nat.add_zero]
    _ ≤ heap.directory.storage (heap.youngerSurvivors after) :=
        Handle.sum_le_of_subset (fun _ => Nat.le_refl _) once contained

/-- A survivor was promoted as its fate says if it lives in the old space, early or in time
by its age. -/
theorem eq_promoted_iff (run : stages.Run heap roots after) (consistent : heap.Consistent)
    {before : Record} {early : Bool}
    (listed : (handle, fate) ∈ stages.evacuation.fates.toList)
    (survives : heap.Survives after handle before record) :
    fate = .promoted early ↔
      record.space = .old ∧ early = decide (record.age < heap.threshold) := by
  obtain ⟨place, address, kept⟩ := run.get?_after_of_fate consistent survives.found listed
  rw [survives.kept, Option.some.injEq] at kept
  subst kept
  cases fate with
  | copied => simp [Record.evacuated, Fate.destination]
  | promoted done =>
      have decided := run.early_eq consistent listed survives.found
      rw [Fate.promoted.injEq, decided, eq_comm]
      exact (and_iff_right rfl).symm
  | retained =>
      have young : before.space ≠ .old := fun old =>
        survives.young ((consistent.old_iff survives.found).mpr old)
      simp [Record.evacuated, Fate.destination, young]

theorem moved_of_survives (run : stages.Run heap roots after) (consistent : heap.Consistent)
    (rotating : heap.Rotating) {before : Record}
    (survives : heap.Survives after handle before record) :
    (record.space = .eden ∧ ∃ address, record = { before with address }) ∨
      (record.age = before.nextAge ∧
        (record.space = .survivor heap.holding.other ∨ record.space = .old)) := by
  obtain ⟨fate, place, address, listed, moved⟩ := run.exists_fate_of_survives consistent survives
  cases fate with
  | copied => exact .inr ⟨congrArg Record.age moved, .inl (congrArg Record.space moved)⟩
  | promoted early => exact .inr ⟨congrArg Record.age moved, .inr (congrArg Record.space moved)⟩
  | retained =>
      have inEden := (run.mem_eden_after consistent rotating).mpr listed
      obtain ⟨same, found, eden⟩ :=
        ((run.consistent_after consistent).fills .eden).mem_handles_iff.mp inEden
      rw [survives.kept, Option.some.injEq] at found
      exact .inl ⟨found ▸ eden, address, moved⟩

theorem age_of_survives (run : stages.Run heap roots after) (consistent : heap.Consistent)
    (rotating : heap.Rotating) {before : Record}
    (survives : heap.Survives after handle before record) (left : record.space ≠ .eden) :
    record.age = before.nextAge := by
  rcases run.moved_of_survives consistent rotating survives with ⟨eden, _⟩ | ⟨age, _⟩
  · exact absurd eden left
  · exact age

/-- Where the survivors have room and no promotion fails, none is promoted early: that would
take more room than all survivors together that are not old enough. -/
theorem aged_of_roomy (run : stages.Run heap roots after) (consistent : heap.Consistent)
    (rotating : heap.Rotating) (promotes : stages.evacuation.promotionFailed = false)
    (fits : heap.directory.storage (heap.youngerSurvivors after) ≤ heap.survivorCeiling)
    {before : Record} (survives : heap.Survives after handle before record)
    (old : record.space = .old) : heap.threshold ≤ before.nextAge := by
  by_contra younger
  have exceeds := run.overflows_of_early consistent rotating survives old (by omega)
  have bounded := run.copiedBefore_le consistent promotes survives (by omega)
  omega

theorem old_iff_of_roomy (run : stages.Run heap roots after) (consistent : heap.Consistent)
    (rotating : heap.Rotating) (promotes : stages.evacuation.promotionFailed = false)
    (cleared : after.eden.residents = #[])
    (fits : heap.directory.storage (heap.youngerSurvivors after) ≤ heap.survivorCeiling)
    {before : Record} (survives : heap.Survives after handle before record) :
    record.space = .old ↔ heap.threshold ≤ before.nextAge := by
  refine ⟨run.aged_of_roomy consistent rotating promotes fits survives, fun aged => ?_⟩
  rcases run.moved_of_survives consistent rotating survives with ⟨eden, _⟩ | ⟨_, copied | old⟩
  · have member := ((run.consistent_after consistent).fills .eden).complete
      handle record survives.kept eden
    rw [Heap.arena, Arena.handles_eq_nil_iff.mpr cleared] at member
    cases member
  · rw [run.promotion_failed_of_late consistent survives copied aged] at promotes
    cases promotes
  · exact old

theorem overflowPromoted_eq (run : stages.Run heap roots after) (consistent : heap.Consistent) :
    stages.evacuation.count (.promoted true) = heap.youngHandles.countP fun handle =>
      (after.directory.get? handle).any fun record =>
        record.space = .old && record.age < heap.threshold := by
  refine run.count_eq_countP consistent _ _ ?_
  intro handle fate before record listed survives
  rw [Bool.eq_iff_iff, decide_eq_true_eq, run.eq_promoted_iff consistent listed survives]
  simp

theorem promoted_eq (run : stages.Run heap roots after) (consistent : heap.Consistent) :
    stages.evacuation.count (.promoted false) = heap.youngHandles.countP fun handle =>
      (after.directory.get? handle).any fun record =>
        record.space = .old && heap.threshold ≤ record.age := by
  refine run.count_eq_countP consistent _ _ ?_
  intro handle fate before record listed survives
  rw [Bool.eq_iff_iff, decide_eq_true_eq, run.eq_promoted_iff consistent listed survives]
  simp

theorem count_early_of_roomy (run : stages.Run heap roots after) (consistent : heap.Consistent)
    (rotating : heap.Rotating) (promotes : stages.evacuation.promotionFailed = false)
    (fits : heap.directory.storage (heap.youngerSurvivors after) ≤ heap.survivorCeiling) :
    stages.evacuation.count (.promoted true) = 0 := by
  rw [run.overflowPromoted_eq consistent, List.countP_eq_zero]
  intro handle member promotedEarly
  obtain ⟨before, found, young⟩ :=
    Directory.isYoung_iff.mp ((run.mem_youngHandles consistent).mp member)
  obtain ⟨record, kept, both⟩ := (Option.any_eq_true _ _).mp promotedEarly
  simp only [Bool.and_eq_true, decide_eq_true_eq] at both
  have survives : heap.Survives after handle before record := ⟨found, young, kept⟩
  have aged := run.aged_of_roomy consistent rotating promotes fits survives both.1
  have age := run.age_of_survives consistent rotating survives (by simp [both.1])
  omega

theorem promotesByAge (run : stages.Run heap roots after) (consistent : heap.Consistent)
    (rotating : heap.Rotating) {outcome : MinorOutcome} (reports : stages.Reports outcome) :
    heap.PromotesByAge outcome after := by
  have vacates := run.vacates consistent rotating reports
  refine
    { listed := fun handle => run.mem_youngHandles consistent
      ordered := consistent.ordered_youngHandles
      moved := fun handle before record survives =>
        run.moved_of_survives consistent rotating survives
      late := fun handle before record survives copied aged => ?_
      early := fun handle before record survives old younger => ?_
      overflowPromoted := reports.overflowPromoted.trans (run.overflowPromoted_eq consistent)
      promoted := reports.promoted.trans (run.promoted_eq consistent)
      roomy := fun promotes fits => ⟨fun handle before record survives => ?_, ?_, ?_⟩ }
  · rw [run.age_of_survives consistent rotating survives (by simp [copied])] at aged
    rw [reports.promotionFailed]
    exact run.promotion_failed_of_late consistent survives copied aged
  · rw [run.age_of_survives consistent rotating survives (by simp [old])] at younger
    exact run.overflows_of_early consistent rotating survives old younger
  · exact run.old_iff_of_roomy consistent rotating (reports.promotionFailed ▸ promotes)
      (vacates.cleared_of_promoted promotes) fits survives
  · rw [reports.overflowPromoted]
    exact run.count_early_of_roomy consistent rotating (reports.promotionFailed ▸ promotes) fits
  · by_contra retains
    rw [vacates.failed_of_retained retains] at promotes
    cases promotes

end MinorStages.Run

/-- After any operations, a minor cycle moves each survivor by its age, by the room that the
survivors before it leave below the ceiling, and by the room in the old space. -/
theorem minorCycle_promotesByAge [MemorySource Source] (attainable : heap.Attainable)
    {marker next : Marker} {roots : List Handle} {answer : Answer MinorOutcome}
    (ran : heap.minorCycle marker roots = .ok (answer, after, next)) :
    ∃ outcome, answer = .ok outcome ∧ heap.PromotesByAge outcome after := by
  obtain ⟨outcome, answered, stages, run, reports⟩ := minorCycle_reports ran
  exact ⟨outcome, answered,
    run.promotesByAge attainable.sound.consistent attainable.rotating reports⟩

/-- Below the threshold two of the three survivors overflow the receiving space. -/
theorem minorCycle_promotesByAge_when_overflowing :
    ∃ (heap after : Heap WindowedMemory) (outcome : MinorOutcome) (next : Marker),
      heap.Attainable ∧
        heap.minorCycle .fresh crowdedRoots = .ok (.ok outcome, after, next) ∧
        outcome.promotionFailed = false ∧ outcome.overflowPromoted = 2 ∧
        heap.PromotesByAge outcome after := by
  obtain ⟨heap, attainable, facts⟩ := attainable_of_leadsTo
    (show leadsTo { crowdedSettings with oldSize := 1024 } (WindowedMemory.fresh none)
      [.allocate 64 0, .allocate 64 0, .allocate 64 0]
      (fun heap => (heap.minorCycle .fresh crowdedRoots).toOption.any fun answered =>
        answered.1.toOption.any fun outcome =>
          !outcome.promotionFailed && outcome.overflowPromoted == 2) = true by decide +kernel)
  obtain ⟨⟨_, after, next⟩, ran, facts⟩ := Checked.eq_ok_of_any facts
  obtain ⟨outcome, rfl, promotes⟩ := minorCycle_promotesByAge attainable ran
  simp only [Except.toOption, Option.any_some, Bool.and_eq_true, Bool.not_eq_true',
    beq_iff_eq] at facts
  exact ⟨heap, after, outcome, next, attainable, ran, facts.1, facts.2, promotes⟩

end Heap

end Tenure
