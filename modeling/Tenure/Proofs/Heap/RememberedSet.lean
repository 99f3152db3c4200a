import Tenure.Proofs.Heap.Attainable

/-!
# The remembered set after a cycle

A dirty card says that an old object in it may reference a young one. The barrier only
adds dirty cards, so between cycles some are dirty in vain. A minor cycle cleans every
card that it scans and marks the holders again, a major cycle builds the table anew; after
either the dirty cards are exactly those that have to be.
-/

set_option autoImplicit false

namespace Tenure.Heap

variable {Source : Type}

/-- A card is dirty if and only if an old object that starts in it has a field that names
a young one. -/
def RemembersExactly (heap : Heap Source) : Prop :=
  ∀ index, heap.cards.isDirty index = true ↔ ∃ holder record target,
    heap.directory.get? holder = some record ∧ record.generation = .old ∧
      heap.cards.InCard index record.address ∧ some target ∈ record.fields ∧
      heap.directory.isYoung target = true

variable {heap after : Heap Source}

theorem Consistent.inCard_iff (consistent : heap.Consistent) {holder : Handle}
    {record : Record} (found : heap.directory.get? holder = some record)
    (old : record.generation = .old) {index : Nat} :
    heap.cards.InCard index record.address ↔ heap.cards.cardIndex record.address = index := by
  have covered := consistent.covers found ((consistent.old_iff found).mp old)
  rw [consistent.cards.wellFormed.inCard_iff, and_iff_right covered]

theorem Consistent.remembersExactly_iff (consistent : heap.Consistent) :
    heap.RemembersExactly ↔ ∀ index, heap.cards.isDirty index = true ↔
      ∃ holder, heap.directory.generation? holder = some .old ∧ heap.DirtiedBy holder index := by
  refine forall_congr' fun index => iff_congr Iff.rfl (exists_congr fun holder => ?_)
  rw [Directory.generation?_eq_some_iff, DirtiedBy, Directory.referencesYoung_iff]
  constructor
  · intro remembered
    obtain ⟨record, target, found, old, within, field, young⟩ := remembered
    refine ⟨⟨record, found, old⟩, ⟨target, ?_, young⟩, record, found, ?_⟩
    · exact Directory.mem_graph_iff.mpr ⟨record, found, field⟩
    · exact consistent.cards.wellFormed.inCard_iff.mp within
  · intro dirtied
    obtain ⟨⟨record, found, old⟩, ⟨target, named, young⟩, same, sameFound, covered⟩ := dirtied
    rw [found, Option.some.injEq] at sameFound
    subst sameFound
    obtain ⟨other, otherFound, field⟩ := Directory.mem_graph_iff.mp named
    rw [found, Option.some.injEq] at otherFound
    subst otherFound
    exact ⟨record, target, found, old, consistent.cards.wellFormed.inCard_iff.mpr covered,
      field, young⟩

/-- Growth divides more addresses into cards; no object lies there yet. -/
theorem Enlarges.remembersExactly (larger : heap.Enlarges after) (sound : heap.Sound)
    (exactly : heap.RemembersExactly) : after.RemembersExactly := by
  have consistent := sound.consistent
  have consistentAfter := (larger.sound sound).consistent
  intro index
  rw [larger.isDirty, exactly index]
  refine exists_congr fun holder => exists_congr fun record => exists_congr fun target => ?_
  have found_iff : after.directory.get? holder = some record ↔
      heap.directory.get? holder = some record := by rw [larger.directory]
  constructor
  · intro remembered
    obtain ⟨found, old, within, field, young⟩ := remembered
    refine ⟨found_iff.mpr found, old, ?_, field, larger.directory ▸ young⟩
    rw [consistentAfter.inCard_iff (found_iff.mpr found) old,
      larger.cardIndex_eq consistent.cards]
    exact (consistent.inCard_iff found old).mp within
  · intro remembered
    obtain ⟨found, old, within, field, young⟩ := remembered
    refine ⟨found_iff.mp found, old, ?_, field, larger.directory ▸ young⟩
    rw [consistent.inCard_iff (found_iff.mp found) old,
      ← larger.cardIndex_eq consistent.cards]
    exact (consistentAfter.inCard_iff found old).mp within

/-! ## Minor cycles -/

theorem MinorStages.Run.remembersExactly [MemorySource Source] {stages : MinorStages Source}
    {roots : List Handle} (run : stages.Run heap roots after) (sound : heap.Sound) :
    after.RemembersExactly := by
  have consistent := sound.consistent
  obtain ⟨_, _, _, marks⟩ := run.ends consistent
  -- The scan has cleaned every card, and moving the survivors marks none.
  have clean : ∀ index, stages.evacuation.heap.cards.isDirty index = false := by
    intro index
    rw [(run.evacuating consistent).isDirty]
    exact (CardTable.scanAll_dirty run.scanned).2.1 index
  rw [(run.consistent_after consistent).remembersExactly_iff]
  intro index
  rw [marks, clean]
  constructor
  · intro marked
    obtain ⟨holder, listed, dirtied⟩ := marked.resolve_left Bool.false_ne_true
    exact ⟨holder, run.old_of_mem_rescanned sound listed, dirtied⟩
  · intro remembered
    obtain ⟨holder, old, dirtied⟩ := remembered
    obtain ⟨record, found, old⟩ := Directory.generation?_eq_some_iff.mp old
    exact .inr ⟨holder, run.mem_rescanned sound found old dirtied.1, dirtied⟩

/-! ## Major cycles -/

theorem remembersExactly_of_rebuilt {rebuilt : Heap Source} (consistent : heap.Consistent)
    (closed : heap.directory.Closed)
    (ran : { heap with cards := heap.cards.clear }.remember heap.old.handles = .ok rebuilt) :
    rebuilt.RemembersExactly := by
  obtain ⟨_, sound⟩ := sound_of_rebuilt consistent closed ran
  obtain ⟨cards, rfl, same, marks⟩ := remember_eq_ok ran
  rw [sound.consistent.remembersExactly_iff]
  intro index
  rw [marks, CardTable.isDirty_clear]
  simp only [Bool.false_eq_true, false_or, consistent.mem_old_handles]
  refine exists_congr fun holder => and_congr_right fun _ => ?_
  simp only [DirtiedBy, same.covers_iff, same.cardIndex_eq]

theorem MajorStages.Run.remembersExactly [MemorySource Source] {stages : MajorStages}
    {roots : List Handle} {outcome : MajorOutcome}
    (run : stages.Run heap roots outcome after) (sound : heap.Sound) :
    after.RemembersExactly := by
  have consistent := run.consistent_slid sound.consistent
  have closed := run.closed_slid sound
  obtain ⟨rebuilt, _, remembered, relieved⟩ := run.remembered
  obtain ⟨_, rebuiltSound⟩ := sound_of_rebuilt consistent closed remembered
  have larger := relieve_eq_ok rebuiltSound.consistent.cards relieved
  exact larger.remembersExactly rebuiltSound
    (remembersExactly_of_rebuilt consistent closed remembered)

/-! ## Both -/

/-- A cycle of either kind leads from one heap to another. -/
inductive Cycles [MemorySource Source] (heap : Heap Source) (roots : List Handle)
    (after : Heap Source) : Prop where
  | minor {marker next : Marker} {answer : Answer MinorOutcome}
      (ran : heap.minorCycle marker roots = .ok (answer, after, next)) :
      Cycles heap roots after
  | major {marker next : Marker} {answer : Answer MajorOutcome}
      (ran : heap.majorCycle marker roots = .ok (answer, after, next)) :
      Cycles heap roots after

theorem remembersExactly_of_cycles [MemorySource Source] (attainable : heap.Attainable)
    {roots : List Handle} (cycles : heap.Cycles roots after) : after.RemembersExactly := by
  cases cycles with
  | minor ran =>
      obtain ⟨_, stages, run⟩ := minorCycle_eq_ok ran
      exact run.remembersExactly attainable.sound
  | major ran =>
      obtain ⟨outcome, _, stages, run⟩ := majorCycle_eq_ok ran
      exact run.remembersExactly attainable.sound

/-- An object stays young after the one that references it was promoted. -/
theorem remembersExactly_of_promoted : ∃ heap after : Heap WindowedMemory,
    heap.Attainable ∧ heap.Cycles [] after ∧ after.cards.isDirty 0 = true ∧
      after.cards.isDirty 1 = false ∧ after.RemembersExactly := by
  obtain ⟨heap, attainable, facts⟩ := attainable_of_leadsTo
    (show leadsTo smallSettings (WindowedMemory.fresh none) promotingOperations
      (fun heap => match heap.minorCycle .fresh [] with
        | .ok (_, after, _) => after.cards.isDirty 0 && !after.cards.isDirty 1
        | .error _ => false) = true by decide +kernel)
  split at facts
  · rename_i answer after next ran
    simp only [Bool.and_eq_true, Bool.not_eq_true'] at facts
    exact ⟨heap, after, attainable, .minor ran, facts.1, facts.2,
      remembersExactly_of_cycles attainable (.minor ran)⟩
  · simp at facts

end Tenure.Heap
