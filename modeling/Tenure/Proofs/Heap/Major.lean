import Tenure.Proofs.Heap.Growth
import Tenure.Proofs.Heap.Remembering
import Tenure.Proofs.Heap.Sliding
import Tenure.Proofs.Marking.Trace

/-!
# Major cycles keep heaps sound

A major cycle keeps the objects that are reachable from its live roots. Their records
change in the address only. The card table is built anew from the records, so it
remembers exactly what has to be remembered.
-/

set_option autoImplicit false

namespace Tenure.Heap

variable {Source : Type}

/-- What a major cycle finds out on its way. -/
structure MajorStages where
  reached : HandleSet
  tally : Tally
  directory : Directory

private theorem nodup_spaces : Space.all.Nodup := by decide

namespace MajorStages

variable (stages : MajorStages) (heap : Heap Source)

def swept : Heap Source := { heap with directory := stages.directory }

def slid : Heap Source := (stages.swept heap).slidThrough Space.all stages.directory.isLive

theorem arena_swept (space : Space) : (stages.swept heap).arena space = heap.arena space :=
  arena_congr rfl rfl rfl rfl space

theorem arena_slid (space : Space) :
    (stages.slid heap).arena space = (heap.arena space).slid stages.directory.isLive := by
  rw [slid, arena_slidThrough nodup_spaces, if_pos (Space.mem_all space),
    stages.arena_swept heap space]

/-- The stages of a major cycle follow from each other. -/
structure Run [MemorySource Source] (roots : List Handle) (outcome : MajorOutcome)
    (after : Heap Source) : Prop where
  reached : ∀ handle, stages.reached.contains handle = true ↔
    Reachable heap.directory.graph heap.directory.isLive roots handle
  sweep : heap.directory.sweep
      (heap.residents.filter fun handle => !stages.reached.contains handle) =
    .ok (stages.tally, stages.directory)
  remembered : ∃ rebuilt oldGrownBy,
    { stages.slid heap with cards := (stages.slid heap).cards.clear }.remember
        (stages.slid heap).old.handles = .ok rebuilt ∧
      rebuilt.relieve = .ok (oldGrownBy, after)
  objectsReclaimed : outcome.objectsReclaimed = stages.tally.objects
  bytesReclaimed : outcome.bytesReclaimed = stages.tally.bytes
  relocations : outcome.relocations =
    Directory.slideMoves heap.old stages.directory.isLive
  liveObjects : outcome.liveObjects = after.directory.live

end MajorStages

/-- A major cycle that ends has an outcome. -/
theorem majorCycle_eq_ok [MemorySource Source] {heap after : Heap Source}
    {marker next : Marker} {roots : List Handle} {answer : Answer MajorOutcome}
    (ran : heap.majorCycle marker roots = .ok (answer, after, next)) :
    ∃ outcome, answer = .ok outcome ∧
      ∃ stages : MajorStages, stages.Run heap roots outcome after := by
  unfold majorCycle at ran
  simp only [Checked.bind_eq_ok_iff] at ran
  obtain ⟨⟨answered, marked⟩, traced, ran⟩ := ran
  obtain ⟨reached, rfl, members⟩ := Marker.traceInSteps_eq_ok traced
  simp only [Checked.bind_eq_ok_iff, Checked.pure_eq_ok_iff, Prod.mk.injEq] at ran
  obtain ⟨⟨tally, directory⟩, sweep, ⟨relocations, slid⟩, compacted, rebuilt, remembered,
    ⟨oldGrownBy, relieved⟩, relieve, rfl, rfl, _⟩ := ran
  obtain ⟨rfl, rfl⟩ := compact_eq_ok compacted
  refine ⟨_, rfl, { reached, tally, directory }, ?_⟩
  exact
    { reached := members
      sweep
      remembered := ⟨rebuilt, oldGrownBy, remembered, relieve⟩
      objectsReclaimed := rfl
      bytesReclaimed := rfl
      relocations := rfl
      liveObjects := rfl }

theorem grows_of_relieve [MemorySource Source] {heap after : Heap Source} {added : Nat}
    (ran : heap.relieve = .ok (added, after)) : heap.Grows after := by
  unfold relieve at ran
  split at ran
  · simp only [Checked.bind_eq_ok_iff, Checked.pure_eq_ok_iff, Prod.mk.injEq] at ran
    obtain ⟨additional, _, ⟨granted, grown⟩, grew, _, rfl⟩ := ran
    exact .asked grew
  · simp only [Checked.pure_eq_ok_iff, Prod.mk.injEq] at ran
    exact ran.2 ▸ .unasked

theorem relieve_eq_ok [MemorySource Source] {heap after : Heap Source} {added : Nat}
    (spans : heap.cards.Spans heap.old) (ran : heap.relieve = .ok (added, after)) :
    heap.Enlarges after := by
  cases grows_of_relieve ran with
  | unasked => exact .refl spans
  | asked grew => exact (growOld_eq_ok spans grew).1

namespace MajorStages.Run

variable [MemorySource Source] {stages : MajorStages} {heap after : Heap Source}
  {roots : List Handle} {outcome : MajorOutcome}

/-! ## The sweep and the slides -/

/-- The sweep leaves the objects that were reached. -/
theorem get?_swept (run : stages.Run heap roots outcome after) (consistent : heap.Consistent)
    {handle : Handle} {record : Record} :
    stages.directory.get? handle = some record ↔
      heap.directory.get? handle = some record ∧ stages.reached.contains handle = true := by
  have dead : handle ∈ heap.residents.filter (fun handle => !stages.reached.contains handle) ↔
      heap.directory.isLive handle = true ∧ stages.reached.contains handle = false := by
    rw [List.mem_filter, consistent.mem_residents, Bool.not_eq_true']
  rw [Directory.get?_sweep run.sweep]
  constructor
  · intro found
    split at found
    · simp at found
    · rename_i spared
      refine ⟨found, ?_⟩
      by_contra unreached
      exact spared (dead.mpr
        ⟨Directory.isLive_iff.mpr ⟨record, found⟩, Bool.eq_false_iff.mpr unreached⟩)
  · intro kept
    obtain ⟨found, reached⟩ := kept
    rw [if_neg, found]
    intro swept
    rw [(dead.mp swept).2] at reached
    simp at reached

theorem isLive_swept (run : stages.Run heap roots outcome after) (consistent : heap.Consistent)
    {handle : Handle} : stages.directory.isLive handle = true ↔
      heap.directory.isLive handle = true ∧ stages.reached.contains handle = true := by
  rw [Directory.isLive_iff, Directory.isLive_iff]
  simp only [run.get?_swept consistent, exists_and_right]

theorem settles (run : stages.Run heap roots outcome after) (consistent : heap.Consistent) :
    ∀ space ∈ Space.all, (stages.swept heap).Settles stages.directory.isLive space := by
  intro space _
  have fills := consistent.fills space
  rw [Settles, stages.arena_swept heap space]
  refine ⟨fills.wellFormed, fills.distinct, fun resident member kept => ?_,
    fun handle record found here => ?_⟩
  · obtain ⟨record, found, place⟩ := fills.located resident member
    exact ⟨record, (run.get?_swept consistent).mpr
      ⟨found, ((run.isLive_swept consistent).mp kept).2⟩, place⟩
  · obtain ⟨before, _⟩ := (run.get?_swept consistent).mp found
    exact ⟨fills.complete handle record before here, Directory.isLive_iff.mpr ⟨record, found⟩⟩

/-- A survivor keeps its record but for the address, which does not rise. -/
theorem get?_slid (run : stages.Run heap roots outcome after) (consistent : heap.Consistent)
    {handle : Handle} {record : Record} (found : heap.directory.get? handle = some record)
    (reached : stages.reached.contains handle = true) :
    ∃ address, (stages.slid heap).directory.get? handle = some { record with address } ∧
      address ≤ record.address := by
  have swept := (run.get?_swept consistent).mpr ⟨found, reached⟩
  obtain ⟨address, slid, lower, _⟩ :=
    get?_slidThrough nodup_spaces (run.settles consistent) swept
  exact ⟨address, slid, lower⟩

theorem isLive_slid (run : stages.Run heap roots outcome after) (consistent : heap.Consistent)
    {handle : Handle} : (stages.slid heap).directory.isLive handle = true ↔
      heap.directory.isLive handle = true ∧ stages.reached.contains handle = true := by
  rw [slid, isLive_slidThrough]
  exact run.isLive_swept consistent

theorem origin (run : stages.Run heap roots outcome after) (consistent : heap.Consistent)
    {handle : Handle} {record : Record}
    (found : (stages.slid heap).directory.get? handle = some record) :
    ∃ before address, heap.directory.get? handle = some before ∧
      stages.reached.contains handle = true ∧ record = { before with address } := by
  obtain ⟨live, reached⟩ :=
    (run.isLive_slid consistent).mp (Directory.isLive_iff.mpr ⟨record, found⟩)
  obtain ⟨before, beforeFound⟩ := Directory.isLive_iff.mp live
  obtain ⟨address, same, _⟩ := run.get?_slid consistent beforeFound reached
  rw [found, Option.some.injEq] at same
  exact ⟨before, address, beforeFound, reached, same⟩

theorem consistent_slid (run : stages.Run heap roots outcome after)
    (consistent : heap.Consistent) : (stages.slid heap).Consistent where
  directory := directory_slidThrough (consistent.directory.sweep run.sweep).1
  fills := fun space =>
    (settled_slidThrough nodup_spaces (run.settles consistent)).1 space (Space.mem_all space)
  generation := by
    intro handle record found
    obtain ⟨before, address, beforeFound, _, rfl⟩ := run.origin consistent found
    exact consistent.generation handle before beforeFound
  cards := by
    have cards : (stages.slid heap).cards = heap.cards := cards_slidThrough
    have old : (stages.slid heap).old = heap.old.slid stages.directory.isLive :=
      stages.arena_slid heap .old
    rw [cards, old]
    exact ⟨consistent.cards.wellFormed, consistent.cards.base, consistent.cards.extent⟩

/-- The moves in the old space are those of the old objects whose address changed. -/
theorem mem_relocations (run : stages.Run heap roots outcome after)
    (consistent : heap.Consistent) {move : Relocation} :
    move ∈ Directory.slideMoves heap.old stages.directory.isLive ↔ ∃ before record,
      heap.directory.get? move.handle = some before ∧
        (stages.slid heap).directory.get? move.handle = some record ∧
        before.generation = .old ∧ move.source = before.address ∧
        move.target = record.address ∧ record.address ≠ before.address := by
  refine (mem_slideMoves_iff nodup_spaces (run.settles consistent) (Space.mem_all .old)).trans
    ⟨?_, ?_⟩
  · intro slides
    obtain ⟨before, address, found, old, moved, source, rfl, differs⟩ := slides
    obtain ⟨found, _⟩ := (run.get?_swept consistent).mp found
    exact ⟨before, _, found, moved, (consistent.old_iff found).mpr old, source, rfl, differs⟩
  · intro moves
    obtain ⟨before, record, found, moved, old, source, target, differs⟩ := moves
    obtain ⟨same, address, sameFound, reached, rfl⟩ := run.origin consistent moved
    rw [found, Option.some.injEq] at sameFound
    subst sameFound
    exact ⟨before, address, (run.get?_swept consistent).mpr ⟨found, reached⟩,
      (consistent.old_iff found).mp old, moved, source, target, differs⟩

theorem closed_slid (run : stages.Run heap roots outcome after) (sound : heap.Sound) :
    (stages.slid heap).directory.Closed := by
  intro holder target named
  obtain ⟨record, found, field⟩ := Directory.mem_graph_iff.mp named
  obtain ⟨before, address, beforeFound, reached, rfl⟩ := run.origin sound.consistent found
  have namedBefore := Directory.mem_graph_iff.mpr ⟨before, beforeFound, field⟩
  have live := sound.closed holder target namedBefore
  refine (run.isLive_slid sound.consistent).mpr ⟨live, (run.reached target).mpr ?_⟩
  exact .field ((run.reached holder).mp reached) namedBefore live

end MajorStages.Run

/-! ## The new card table -/

/-- Cards that are all cleaned and marked again for every old object remember what they
have to. -/
theorem sound_of_rebuilt {heap rebuilt : Heap Source} (consistent : heap.Consistent)
    (closed : heap.directory.Closed)
    (ran : { heap with cards := heap.cards.clear }.remember heap.old.handles = .ok rebuilt) :
    (∃ cards, rebuilt = { heap with cards }) ∧ rebuilt.Sound := by
  obtain ⟨cards, rfl, same, marks⟩ := remember_eq_ok ran
  have same := (CardTable.sameCards_clear heap.cards).trans same
  have whole : { heap with cards }.Consistent :=
    ⟨consistent.directory, consistent.fills, consistent.generation,
      same.spans consistent.cards⟩
  refine ⟨⟨cards, rfl⟩, whole, closed, fun holder record found old references => ?_⟩
  have inOld := (consistent.old_iff found).mp old
  have covered := consistent.covers found inOld
  refine ⟨same.covers_iff.mpr covered, (marks _).mpr (.inr ⟨holder, ?_, references, record, found,
    (CardTable.sameCards_clear heap.cards).covers_iff.mpr covered, ?_⟩)⟩
  · exact (consistent.fills .old).complete holder record found inOld
  · exact ((CardTable.sameCards_clear heap.cards).cardIndex_eq _).trans
      (same.cardIndex_eq record.address).symm

namespace MajorStages.Run

variable [MemorySource Source] {stages : MajorStages} {heap after : Heap Source}
  {roots : List Handle} {outcome : MajorOutcome}

/-- The rest of the cycle changes marks, and the capacity of the old space. -/
theorem enlarges (run : stages.Run heap roots outcome after) (sound : heap.Sound) :
    ∃ cards, { stages.slid heap with cards }.Sound ∧
      { stages.slid heap with cards }.Enlarges after := by
  obtain ⟨rebuilt, _, remembered, relieved⟩ := run.remembered
  obtain ⟨⟨cards, rfl⟩, rebuiltSound⟩ :=
    sound_of_rebuilt (run.consistent_slid sound.consistent) (run.closed_slid sound) remembered
  exact ⟨cards, rebuiltSound, relieve_eq_ok rebuiltSound.consistent.cards relieved⟩

theorem holding_after (run : stages.Run heap roots outcome after) (sound : heap.Sound) :
    after.holding = heap.holding := by
  obtain ⟨cards, _, larger⟩ := run.enlarges sound
  have slid : (stages.slid heap).holding = heap.holding := holding_slidThrough
  exact larger.holding.trans slid

theorem arena_after (run : stages.Run heap roots outcome after) (sound : heap.Sound)
    {space : Space} (young : space ≠ .old) :
    after.arena space = (heap.arena space).slid stages.directory.isLive := by
  obtain ⟨cards, _, larger⟩ := run.enlarges sound
  rw [larger.arena_of_young young, ← stages.arena_slid heap space]
  exact arena_congr rfl rfl rfl rfl space

theorem ends (run : stages.Run heap roots outcome after) (sound : heap.Sound) :
    after.Sound ∧ after.directory = (stages.slid heap).directory ∧
      ∀ space, (after.arena space).handles = ((stages.slid heap).arena space).handles := by
  obtain ⟨cards, rebuiltSound, larger⟩ := run.enlarges sound
  refine ⟨larger.sound rebuiltSound, larger.directory, fun space => ?_⟩
  by_cases old : space = .old
  · subst old
    obtain ⟨_, _, same⟩ := larger.old
    rw [arena, same]
    rfl
  · rw [run.arena_after sound old, stages.arena_slid]

theorem turns (run : stages.Run heap roots outcome after) (sound : heap.Sound) :
    heap.directory.Turns after.directory := by
  refine (Directory.turns_sweep run.sweep).trans (.of_occupancy ?_)
  rw [(run.ends sound).2.1, slid, occupancy_slidThrough]
  rfl

end MajorStages.Run

theorem Sound.majorCycle [MemorySource Source] {heap after : Heap Source} (sound : heap.Sound)
    {marker next : Marker} {roots : List Handle} {answer : Answer MajorOutcome}
    (ran : heap.majorCycle marker roots = .ok (answer, after, next)) : after.Sound := by
  obtain ⟨_, _, stages, run⟩ := majorCycle_eq_ok ran
  exact (run.ends sound).1

end Tenure.Heap
