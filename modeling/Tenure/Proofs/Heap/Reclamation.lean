import Tenure.Proofs.Heap.Attainable

/-!
# What cycles reclaim

A minor cycle reclaims exactly the young objects to which no path leads from a live root
or from an old object. A major cycle reclaims exactly the objects to which no path leads
from a live root, and changes nothing but addresses.
-/

set_option autoImplicit false

namespace Tenure.Heap

variable {Source : Type}

/-! ## Minor cycles -/

/-- A minor cycle keeps the old objects, which it does not touch, and the needed young
ones with their sizes and their fields. -/
structure MinorExact (heap : Heap Source) (roots : List Handle) (after : Heap Source) :
    Prop where
  live_iff : ∀ handle, after.directory.isLive handle = true ↔
    heap.directory.isLive handle = true ∧
      (heap.directory.generation? handle = some .old ∨ heap.Needed roots handle)
  kept : ∀ handle before, heap.directory.get? handle = some before →
    after.directory.isLive handle = true →
    ∃ record, after.directory.get? handle = some record ∧ record.size = before.size ∧
      record.fields = before.fields
  untouched : ∀ handle before, heap.directory.get? handle = some before →
    before.generation = .old → after.directory.get? handle = some before

theorem MinorStages.Run.exact [MemorySource Source] {stages : MinorStages Source}
    {heap after : Heap Source} {roots : List Handle} (run : stages.Run heap roots after)
    (sound : heap.Sound) : heap.MinorExact roots after where
  live_iff := by
    intro handle
    rw [run.isLive_after_iff sound.consistent]
    refine and_congr_right fun live => ?_
    rw [run.reached, MinorMarking.holders, sound.reachable_young_iff run.scanned]
    constructor
    · intro reason
      rcases reason with old | ⟨_, needed⟩
      · exact .inl old
      · exact .inr needed
    · intro reason
      rcases reason with old | needed
      · exact .inl old
      · obtain ⟨record, found⟩ := Directory.isLive_iff.mp live
        by_cases old : record.generation = .old
        · exact .inl (Directory.generation?_eq_some_iff.mpr ⟨record, found, old⟩)
        · exact .inr ⟨Directory.isYoung_iff.mpr ⟨record, found, old⟩, needed⟩
  kept := by
    intro handle before found live
    obtain ⟨record, afterFound⟩ := Directory.isLive_iff.mp live
    obtain ⟨same, sameFound, origin⟩ := run.origin_after sound.consistent afterFound
    rw [found, Option.some.injEq] at sameFound
    subst sameFound
    rcases origin with ⟨_, rfl⟩ | ⟨_, fate, place, address, _, rfl⟩
    · exact ⟨record, afterFound, rfl, rfl⟩
    · have contents := before.evacuated_contents (fate.destination heap.holding.other) place
      exact ⟨_, afterFound, congrArg Prod.fst contents, congrArg Prod.snd contents⟩
  untouched := fun _ _ found old => run.get?_after_old sound.consistent found old

/-- After any operations a minor cycle has an outcome and is exact. -/
theorem minorCycle_exact [MemorySource Source] {heap after : Heap Source}
    (attainable : heap.Attainable) {marker next : Marker} {roots : List Handle}
    {answer : Answer MinorOutcome}
    (ran : heap.minorCycle marker roots = .ok (answer, after, next)) :
    (∃ outcome, answer = .ok outcome) ∧ heap.MinorExact roots after := by
  obtain ⟨answered, stages, run⟩ := minorCycle_eq_ok ran
  exact ⟨answered, run.exact attainable.sound⟩

theorem minorCycle_exact_without_roots :
    ∃ (heap after : Heap WindowedMemory) (answer : Answer MinorOutcome) (next : Marker),
      heap.Attainable ∧ heap.minorCycle .fresh [] = .ok (answer, after, next) ∧
        (∃ outcome, answer = .ok outcome) ∧ heap.MinorExact [] after := by
  obtain ⟨heap, attainable, runs⟩ := attainable_of_leadsTo
    (show leadsTo smallSettings (WindowedMemory.fresh none) promotingOperations
      (fun heap => (heap.minorCycle .fresh []).isOk) = true by decide +kernel)
  obtain ⟨⟨answer, after, next⟩, ran⟩ := Checked.isOk_iff.mp runs
  exact ⟨heap, after, answer, next, attainable, ran, minorCycle_exact attainable ran⟩

/-! ## Major cycles -/

/-- A major cycle keeps the objects at the ends of paths from live roots. It changes
nothing about them but their addresses, which do not rise, it keeps their order in every
space, and it reports the old objects that moved and the number of live objects. -/
structure MajorExact (heap : Heap Source) (roots : List Handle) (outcome : MajorOutcome)
    (after : Heap Source) : Prop where
  live_iff : ∀ handle, after.directory.isLive handle = true ↔
    heap.directory.isLive handle = true ∧ ∃ root ∈ roots,
      heap.directory.isLive root = true ∧ heap.directory.graph.Leads root handle
  kept : ∀ handle before, heap.directory.get? handle = some before →
    after.directory.isLive handle = true →
    ∃ address, after.directory.get? handle = some { before with address } ∧
      address ≤ before.address
  ordered : ∀ space, (after.arena space).handles =
    (heap.arena space).handles.filter after.directory.isLive
  reported_once : (outcome.relocations.map Relocation.handle).Nodup
  reported_iff : ∀ move, move ∈ outcome.relocations ↔ ∃ before record,
    heap.directory.get? move.handle = some before ∧
      after.directory.get? move.handle = some record ∧ before.generation = .old ∧
      move.source = before.address ∧ move.target = record.address ∧
      record.address ≠ before.address
  counted : ∃ handles : List Handle, handles.Nodup ∧
    (∀ handle, handle ∈ handles ↔ after.directory.isLive handle = true) ∧
    outcome.liveObjects = handles.length

theorem MajorStages.Run.exact [MemorySource Source] {stages : MajorStages}
    {heap after : Heap Source} {roots : List Handle} {outcome : MajorOutcome}
    (run : stages.Run heap roots outcome after) (sound : heap.Sound) :
    heap.MajorExact roots outcome after := by
  have consistent := sound.consistent
  obtain ⟨afterSound, directory, arenas⟩ := run.ends sound
  have formed := afterSound.consistent.directory
  have live : ∀ handle, after.directory.isLive handle = stages.directory.isLive handle := by
    intro handle
    rw [directory, MajorStages.slid, isLive_slidThrough]
    rfl
  refine
    { live_iff := fun handle => ?_
      kept := fun handle before found lives => ?_
      ordered := fun space => ?_
      reported_once := ?_
      reported_iff := fun move => ?_
      counted := ⟨after.directory.handles, formed.nodup_handles,
        fun _ => formed.mem_handles, ?_⟩ }
  · rw [directory, run.isLive_slid consistent, run.reached, reachable_iff_leads sound.closed]
  · rw [directory] at lives ⊢
    exact run.get?_slid consistent found ((run.isLive_slid consistent).mp lives).2
  · rw [arenas, stages.arena_slid, Arena.handles_slid]
    exact List.filter_congr fun handle _ => (live handle).symm
  · rw [run.relocations]
    exact Directory.nodup_slideMoves (consistent.fills .old).distinct
  · rw [run.relocations, run.mem_relocations consistent, directory]
  · rw [run.liveObjects, formed.length_handles]

/-- After any operations a major cycle has an outcome and is exact. -/
theorem majorCycle_exact [MemorySource Source] {heap after : Heap Source}
    (attainable : heap.Attainable) {marker next : Marker} {roots : List Handle}
    {answer : Answer MajorOutcome}
    (ran : heap.majorCycle marker roots = .ok (answer, after, next)) :
    ∃ outcome, answer = .ok outcome ∧ heap.MajorExact roots outcome after := by
  obtain ⟨outcome, answered, stages, run⟩ := majorCycle_eq_ok ran
  exact ⟨outcome, answered, run.exact attainable.sound⟩

theorem majorCycle_exact_with_root :
    ∃ (heap after : Heap WindowedMemory) (answer : Answer MajorOutcome) (next : Marker),
      heap.Attainable ∧ heap.majorCycle .fresh [firstHandle] = .ok (answer, after, next) ∧
        ∃ outcome, answer = .ok outcome ∧ heap.MajorExact [firstHandle] outcome after := by
  obtain ⟨heap, attainable, runs⟩ := attainable_of_leadsTo
    (show leadsTo smallSettings (WindowedMemory.fresh none) promotingOperations
      (fun heap => (heap.majorCycle .fresh [firstHandle]).isOk) = true by decide +kernel)
  obtain ⟨⟨answer, after, next⟩, ran⟩ := Checked.isOk_iff.mp runs
  exact ⟨heap, after, answer, next, attainable, ran, majorCycle_exact attainable ran⟩

/-! ## What both promise -/

/-- What a cycle promises about the objects. -/
structure Retains (heap : Heap Source) (roots : List Handle) (after : Heap Source) : Prop where
  fields : ∀ handle record, after.directory.get? handle = some record →
    ∃ before, heap.directory.get? handle = some before ∧ record.fields = before.fields
  live : ∀ root ∈ roots, heap.directory.isLive root = true → ∀ handle,
    heap.directory.graph.Leads root handle → after.directory.isLive handle = true
  turns : heap.directory.Turns after.directory

theorem Sound.isLive_of_leads {heap : Heap Source} (sound : heap.Sound) {root handle : Handle}
    (live : heap.directory.isLive root = true)
    (leads : heap.directory.graph.Leads root handle) :
    heap.directory.isLive handle = true :=
  leads.induction (motive := fun target => heap.directory.isLive target = true) live
    fun holder target _ _ named => sound.closed holder target named

namespace Retains

variable {Source : Type} {heap middle after : Heap Source} {roots : List Handle}

theorem refl (heap : Heap Source) (sound : heap.Sound) (roots : List Handle) :
    heap.Retains roots heap where
  fields := fun _ record found => ⟨record, found, rfl⟩
  live := fun _ _ live _ leads => sound.isLive_of_leads live leads
  turns := .of_occupancy rfl

/-- What a live root leads to is led to as before. -/
theorem leads (retains : heap.Retains roots after) {root handle : Handle}
    (member : root ∈ roots) (live : heap.directory.isLive root = true)
    (leads : heap.directory.graph.Leads root handle) :
    after.directory.graph.Leads root handle := by
  refine leads.induction (motive := fun target => after.directory.graph.Leads root target)
    (.refl _ root) fun holder target reached still named => ?_
  obtain ⟨record, found⟩ :=
    Directory.isLive_iff.mp (retains.live root member live holder reached)
  obtain ⟨before, beforeFound, fields⟩ := retains.fields holder record found
  obtain ⟨_, sameFound, field⟩ := Directory.mem_graph_iff.mp named
  rw [beforeFound, Option.some.injEq] at sameFound
  exact still.field (Directory.mem_graph_iff.mpr
    ⟨record, found, fields ▸ sameFound ▸ field⟩)

theorem trans (first : heap.Retains roots middle) (second : middle.Retains roots after) :
    heap.Retains roots after where
  fields := fun handle record found => by
    obtain ⟨between, betweenFound, fields⟩ := second.fields handle record found
    obtain ⟨before, beforeFound, same⟩ := first.fields handle between betweenFound
    exact ⟨before, beforeFound, fields.trans same⟩
  live := fun root member live handle leads =>
    second.live root member (first.live root member live root (.refl _ root)) handle
      (first.leads member live leads)
  turns := first.turns.trans second.turns

end Retains

theorem Retains.setThreshold {heap after : Heap Source} {roots : List Handle}
    (retains : heap.Retains roots after) (threshold : Nat) :
    heap.Retains roots (after.setThreshold threshold).2 := by
  unfold Heap.setThreshold
  split
  · exact ⟨retains.fields, retains.live, retains.turns⟩
  · exact retains

theorem Sound.retains_of_minorCycle [MemorySource Source] {heap after : Heap Source} (sound : heap.Sound)
    {marker next : Marker} {roots : List Handle} {answer : Answer MinorOutcome}
    (ran : heap.minorCycle marker roots = .ok (answer, after, next)) :
    heap.Retains roots after := by
  obtain ⟨_, stages, run⟩ := minorCycle_eq_ok ran
  have exact := run.exact sound
  refine ⟨fun handle record found => ?_, fun root member live handle leads => ?_,
    run.turns sound.consistent⟩
  · have liveAfter := Directory.isLive_iff.mpr ⟨record, found⟩
    obtain ⟨before, beforeFound⟩ :=
      Directory.isLive_iff.mp ((exact.live_iff handle).mp liveAfter).1
    obtain ⟨same, sameFound, _, fields⟩ := exact.kept handle before beforeFound liveAfter
    rw [found, Option.some.injEq] at sameFound
    exact ⟨before, beforeFound, sameFound ▸ fields⟩
  · exact (exact.live_iff handle).mpr ⟨sound.isLive_of_leads live leads,
      .inr ⟨root, live, .inl member, leads⟩⟩

theorem Sound.retains_of_majorCycle [MemorySource Source] {heap after : Heap Source} (sound : heap.Sound)
    {marker next : Marker} {roots : List Handle} {answer : Answer MajorOutcome}
    (ran : heap.majorCycle marker roots = .ok (answer, after, next)) :
    heap.Retains roots after := by
  obtain ⟨_, _, stages, run⟩ := majorCycle_eq_ok ran
  have exact := run.exact sound
  refine ⟨fun handle record found => ?_, fun root member live handle leads => ?_,
    run.turns sound⟩
  · have liveAfter := Directory.isLive_iff.mpr ⟨record, found⟩
    obtain ⟨before, beforeFound⟩ :=
      Directory.isLive_iff.mp ((exact.live_iff handle).mp liveAfter).1
    obtain ⟨address, sameFound, _⟩ := exact.kept handle before beforeFound liveAfter
    rw [found, Option.some.injEq] at sameFound
    exact ⟨before, beforeFound, sameFound ▸ rfl⟩
  · exact (exact.live_iff handle).mpr
      ⟨sound.isLive_of_leads live leads, root, member, live, leads⟩

end Tenure.Heap
