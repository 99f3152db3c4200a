import Tenure.Proofs.Directory.Accounts
import Tenure.Proofs.Heap.Addressable
import Tenure.Proofs.Heap.Rotation

/-!
# What a heap holds, in numbers

The bytes of the live objects are the bytes in use, since residents leave no gaps. An
allocation adds one object and its storage, a cycle takes away what it reports as
reclaimed, and nothing else changes these numbers.
-/

set_option autoImplicit false

namespace Tenure.Heap

variable {Source : Type} {heap after : Heap Source} {roots : List Handle}

/-! ## Bytes in use -/

theorem Consistent.storage_residents (consistent : heap.Consistent) :
    heap.directory.storage heap.residents =
      heap.eden.used + heap.survivorA.used + heap.survivorB.used + heap.old.used := by
  have eden := consistent.storage_arena .eden
  have first := consistent.storage_arena (.survivor .a)
  have second := consistent.storage_arena (.survivor .b)
  have old := consistent.storage_arena .old
  simp only [arena, survivor] at eden first second old
  simp only [residents, Space.all, List.flatMap_cons, List.flatMap_nil,
    Directory.storage_append, Directory.storage_nil, arena, survivor]
  omega

theorem Consistent.bytes_eq (consistent : heap.Consistent) : heap.directory.bytes =
    heap.eden.used + heap.survivorA.used + heap.survivorB.used + heap.old.used := by
  rw [← consistent.storage_residents]
  exact (consistent.directory.storage_eq_bytes consistent.nodup_residents
    fun handle => consistent.mem_residents).symm

/-- The survivor space that the usage leaves out is empty. -/
theorem Rotating.bytes_eq (rotating : heap.Rotating) (consistent : heap.Consistent) :
    heap.directory.bytes =
      heap.usage.edenUsed + heap.usage.survivorUsed + heap.usage.oldUsed := by
  have unused : (heap.survivor heap.holding.other).used = 0 := by
    have used := (consistent.fills (.survivor heap.holding.other)).wellFormed.used_eq
    rw [arena, rotating.vacant] at used
    exact used
  rw [consistent.bytes_eq]
  unfold usage
  cases side : heap.holding with
  | a =>
      rw [side] at unused
      simp only [Side.other, survivor] at unused ⊢
      omega
  | b =>
      rw [side] at unused
      simp only [Side.other, survivor] at unused ⊢
      omega

/-! ## Cycles -/

/-- So many objects with so many bytes are gone. -/
structure Reclaims (heap after : Heap Source) (objects bytes : Nat) : Prop where
  objects : after.directory.live + objects = heap.directory.live
  bytes : after.directory.bytes + bytes = heap.directory.bytes

theorem Reclaims.setThreshold {objects bytes : Nat} (reclaims : heap.Reclaims after objects bytes)
    (threshold : Nat) : heap.Reclaims (after.setThreshold threshold).2 objects bytes := by
  unfold Heap.setThreshold
  split
  · exact ⟨reclaims.objects, reclaims.bytes⟩
  · exact reclaims

/-- A sweep is all that a cycle takes away if the other stages keep the sizes of objects. -/
theorem reclaims_of_sweep {swept : Directory} {dead : List Handle} {tally : Tally}
    (consistent : heap.Consistent) (consistentAfter : after.Consistent)
    (sweep : heap.directory.sweep dead = .ok (tally, swept))
    (same : swept.SameSizes after.directory) :
    heap.Reclaims after tally.objects tally.bytes := by
  obtain ⟨sweptFormed, live⟩ := consistent.directory.sweep sweep
  have bytes := consistent.directory.bytes_sweep sweep
  refine ⟨?_, ?_⟩
  · rw [same.live_eq sweptFormed consistentAfter.directory]
    exact live
  · rw [same.bytes_eq sweptFormed consistentAfter.directory]
    exact bytes

variable [MemorySource Source]

theorem MinorStages.Run.sameSizes {stages : MinorStages Source}
    (run : stages.Run heap roots after) (consistent : heap.Consistent) :
    stages.directory.SameSizes after.directory := by
  intro handle
  by_cases live : after.directory.isLive handle = true
  · obtain ⟨record, found⟩ := Directory.isLive_iff.mp live
    obtain ⟨before, beforeFound, origin⟩ := run.origin_after consistent found
    rw [found]
    rcases origin with ⟨old, rfl⟩ | ⟨_, fate, place, address, listed, rfl⟩
    · rw [(run.get?_swept consistent).mpr ⟨beforeFound, .inl old⟩]
    · have reached := run.reached_of_fate consistent listed
      have contents := before.evacuated_contents (fate.destination heap.holding.other) place
      rw [(run.get?_swept consistent).mpr ⟨beforeFound, .inr reached⟩]
      exact congrArg some (congrArg Prod.fst contents)
  · have swept : stages.directory.get? handle = none := by
      refine Option.eq_none_iff_forall_ne_some.mpr fun record found => live ?_
      obtain ⟨found, reason⟩ := (run.get?_swept consistent).mp found
      refine (run.isLive_after_iff consistent).mpr ⟨Directory.isLive_iff.mpr ⟨record, found⟩, ?_⟩
      rcases reason with old | reached
      · exact .inl (Directory.generation?_eq_some_iff.mpr ⟨record, found, old⟩)
      · exact .inr reached
    rw [Directory.isLive_eq_false_iff.mp (Bool.eq_false_iff.mpr live), swept]

theorem MajorStages.Run.sameSizes {stages : MajorStages} {outcome : MajorOutcome}
    (run : stages.Run heap roots outcome after) (sound : heap.Sound) :
    stages.directory.SameSizes after.directory := by
  have consistent := sound.consistent
  intro handle
  rw [(run.ends sound).2.1]
  by_cases live : (stages.slid heap).directory.isLive handle = true
  · obtain ⟨record, found⟩ := Directory.isLive_iff.mp live
    obtain ⟨before, address, beforeFound, reached, rfl⟩ := run.origin consistent found
    rw [found, (run.get?_swept consistent).mpr ⟨beforeFound, reached⟩]
    rfl
  · have swept : stages.directory.isLive handle = false := by
      rw [← Bool.not_eq_true, run.isLive_swept consistent, ← run.isLive_slid consistent]
      exact live
    rw [Directory.isLive_eq_false_iff.mp (Bool.eq_false_iff.mpr live),
      Directory.isLive_eq_false_iff.mp swept]

theorem Sound.reclaims_of_minorCycle (sound : heap.Sound) {marker next : Marker}
    {outcome : MinorOutcome} (ran : heap.minorCycle marker roots = .ok (.ok outcome, after, next)) :
    heap.Reclaims after outcome.objectsReclaimed outcome.bytesReclaimed := by
  obtain ⟨_, answered, stages, run, reports⟩ := minorCycle_reports ran
  cases answered
  rw [reports.objectsReclaimed, reports.bytesReclaimed]
  exact reclaims_of_sweep sound.consistent (run.consistent_after sound.consistent) run.sweep
    (run.sameSizes sound.consistent)

theorem Sound.reclaims_of_majorCycle (sound : heap.Sound) {marker next : Marker}
    {outcome : MajorOutcome} (ran : heap.majorCycle marker roots = .ok (.ok outcome, after, next)) :
    heap.Reclaims after outcome.objectsReclaimed outcome.bytesReclaimed := by
  obtain ⟨_, answered, stages, run⟩ := majorCycle_eq_ok ran
  cases answered
  rw [run.objectsReclaimed, run.bytesReclaimed]
  exact reclaims_of_sweep sound.consistent (run.ends sound).1.consistent run.sweep
    (run.sameSizes sound)

/-! ## Promotions -/

omit [MemorySource Source] in
theorem Evacuation.length_promoted (evacuation : Evacuation Source) :
    evacuation.promoted.length =
      evacuation.count (.promoted false) + evacuation.count (.promoted true) := by
  simp only [Evacuation.promoted, Evacuation.count, ← Array.countP_toList, List.length_map]
  rw [← List.countP_eq_length_filter]
  induction evacuation.fates.toList with
  | nil => rfl
  | cons entry rest ih =>
      simp only [List.countP_cons, ih]
      rcases entry with ⟨_, _ | (_ | _) | _⟩ <;> simp [Fate.isPromoted] <;> omega

theorem MinorStages.Run.nodup_promoted {stages : MinorStages Source}
    (run : stages.Run heap roots after) (consistent : heap.Consistent) :
    stages.evacuation.promoted.Nodup := by
  have handled := (run.movable consistent).distinct
  rw [← (run.evacuating consistent).handled] at handled
  exact handled.sublist (List.filter_sublist.map _)

/-- A minor cycle promotes each young object once at most, and leaves no promoted one young. -/
theorem Sound.youngs_of_minorCycle (sound : heap.Sound) {marker next : Marker}
    {outcome : MinorOutcome} (ran : heap.minorCycle marker roots = .ok (.ok outcome, after, next)) :
    after.directory.youngs.length + (outcome.promoted + outcome.overflowPromoted) ≤
      heap.directory.youngs.length := by
  obtain ⟨_, answered, stages, run, reports⟩ := minorCycle_reports ran
  cases answered
  have consistent := sound.consistent
  have formed := consistent.directory
  have formedAfter := (run.consistent_after consistent).directory
  have distinct := run.nodup_promoted consistent
  have aged : ∀ handle ∈ stages.evacuation.promoted, after.directory.isYoung handle = false := by
    intro handle promoted
    have old := run.old_of_mem_rescanned sound (List.mem_append_right _ promoted)
    rw [Directory.isYoung, old]
    rfl
  have young : ∀ handle ∈ stages.evacuation.promoted, heap.directory.isYoung handle = true := by
    intro handle promoted
    obtain ⟨_, listed⟩ := Evacuation.mem_promoted.mp promoted
    exact run.young_of_reached (run.reached_of_fate consistent listed)
  have apart : (after.directory.youngs ++ stages.evacuation.promoted).Nodup := by
    refine List.nodup_append.mpr ⟨formedAfter.nodup_youngs, distinct, ?_⟩
    rintro handle youngAfter _ promoted rfl
    rw [formedAfter.mem_youngs, aged handle promoted] at youngAfter
    cases youngAfter
  have fewer : after.directory.youngs ++ stages.evacuation.promoted ⊆ heap.directory.youngs := by
    intro handle member
    refine formed.mem_youngs.mpr ?_
    rcases List.mem_append.mp member with still | promoted
    · exact run.young_before consistent (formedAfter.mem_youngs.mp still)
    · exact young handle promoted
  have counted := (apart.subperm fewer).length_le
  rwa [List.length_append, Evacuation.length_promoted, ← reports.promoted,
    ← reports.overflowPromoted] at counted

theorem Sound.youngs_of_majorCycle (sound : heap.Sound) {marker next : Marker}
    {answer : Answer MajorOutcome} (ran : heap.majorCycle marker roots = .ok (answer, after, next)) :
    after.directory.youngs.length ≤ heap.directory.youngs.length := by
  have formed := sound.consistent.directory
  obtain ⟨_, _, stages, run⟩ := majorCycle_eq_ok ran
  refine (sound.majorCycle ran).consistent.directory.length_youngs_le_of_subset _
    fun handle young => formed.mem_youngs.mpr ?_
  obtain ⟨record, found, different⟩ := Directory.isYoung_iff.mp young
  rw [(run.ends sound).2.1] at found
  obtain ⟨before, _, beforeFound, _, rfl⟩ := run.origin sound.consistent found
  exact Directory.isYoung_iff.mpr ⟨before, beforeFound, different⟩

/-! ## Allocation and stores -/

omit [MemorySource Source] in
/-- An allocation adds nothing, or one object of the rounded size. -/
theorem Sound.counts_of_tryAllocate (sound : heap.Sound) {size fieldCount : Nat}
    {placed : Option Handle} (ran : heap.tryAllocate size fieldCount = .ok (placed, after)) :
    (placed = none ∧ after = heap) ∨
      (placed.isSome ∧ alignSize size = .ok (roundedSize size) ∧
        after.directory.live = heap.directory.live + 1 ∧
        after.directory.bytes = heap.directory.bytes + roundedSize size) := by
  rcases tryAllocate_eq_ok ran with unplaced | ⟨handle, room, rfl, fresh, aligned, _, rfl⟩
  · exact .inl unplaced
  · obtain ⟨_, rfl⟩ := alignSize_eq_ok_iff.mp aligned
    exact .inr ⟨rfl, aligned, Directory.live_insert _ _,
      sound.consistent.directory.bytes_insert fresh _⟩

omit [MemorySource Source] in
theorem Sound.counts_of_store (sound : heap.Sound) {holder : Handle} {index : Nat}
    {value : Option Handle} {answer : Answer Unit}
    (ran : heap.store holder index value = .ok (answer, after)) :
    heap.Reclaims after 0 0 := by
  rcases store_eq_ok ran with ⟨_, _, rfl⟩ | ⟨_, _, _, cards, barrier, _, _, _, rfl⟩
  · exact ⟨rfl, rfl⟩
  · have same : heap.directory.SameSizes
        (heap.withField holder index value cards barrier).directory := by
      intro handle
      rw [get?_withField]
      split
      · rename_i here
        subst here
        rw [Option.map_map]
        rfl
      · rfl
    have formed := sound.consistent.directory.update holder
      fun record => { record with fields := record.fields.set index value }
    exact ⟨same.live_eq sound.consistent.directory formed,
      same.bytes_eq sound.consistent.directory formed⟩

omit [MemorySource Source] in
theorem Consistent.youngs_withNew (consistent : heap.Consistent) {handle : Handle}
    (fresh : heap.directory.fresh? = some handle) (size fieldCount : Nat) :
    (heap.withNew handle size fieldCount).directory.youngs.length ≤
      heap.directory.youngs.length + 1 := by
  have formed := consistent.directory
  have inserted : (heap.withNew handle size fieldCount).directory.WellFormed :=
    formed.insert fresh _
  refine inserted.length_youngs_le_of_subset (handle :: heap.directory.youngs) fun other young => ?_
  by_cases same : other = handle
  · exact same ▸ List.mem_cons_self
  · rw [Directory.isYoung, Directory.generation?, get?_withNew fresh, if_neg same] at young
    exact List.mem_cons_of_mem _ (formed.mem_youngs.mpr young)

omit [MemorySource Source] in
theorem Sound.youngs_of_store (sound : heap.Sound) {holder : Handle} {index : Nat}
    {value : Option Handle} {answer : Answer Unit}
    (ran : heap.store holder index value = .ok (answer, after)) :
    after.directory.youngs.length ≤ heap.directory.youngs.length := by
  have formed := sound.consistent.directory
  refine (sound.store ran).consistent.directory.length_youngs_le_of_subset _
    fun handle young => formed.mem_youngs.mpr ?_
  rcases store_eq_ok ran with ⟨_, _, rfl⟩ | ⟨_, _, _, cards, barrier, _, _, _, rfl⟩
  · exact young
  · rwa [isYoung_withField] at young

end Tenure.Heap
