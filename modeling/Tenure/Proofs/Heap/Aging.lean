import Tenure.Proofs.Heap.Reclamation

/-!
# Aging

Generations and ages only move forward. Minor cycles alone change them: an object that a
minor cycle moves becomes older by one, up to the greatest age, and an object that stays
in place stays as old as it is. So only the objects in eden have the age zero, and what
is old once does not change again.
-/

set_option autoImplicit false

namespace Tenure

/-! ## Records -/

theorem Generation.le_refl (generation : Generation) : generation ≤ generation :=
  Nat.le_refl generation.rank

theorem Generation.le_trans {lower middle upper : Generation} (first : lower ≤ middle)
    (second : middle ≤ upper) : lower ≤ upper :=
  Nat.le_trans (show lower.rank ≤ middle.rank from first) second

namespace Record

/-- The age of an object says whether it has left eden. -/
structure Aged (record : Record) : Prop where
  age_le : record.age ≤ maxAge
  age_eq_zero_iff : record.age = 0 ↔ record.generation = .eden

/-- How far an object may come in a run with so many minor cycles. -/
structure Matures (minorCycles : Nat) (before after : Record) : Prop where
  generation_le : before.generation ≤ after.generation
  age_le : before.age ≤ after.age
  age_le_add : after.age ≤ before.age + minorCycles
  settled : before.generation = .old →
    after.generation = .old ∧ after.age = before.age
  unchanged : minorCycles = 0 →
    after.generation = before.generation ∧ after.age = before.age

namespace Matures

variable {first second : Nat} {before middle after : Record}

theorem of_same (minorCycles : Nat) (generation : after.generation = before.generation)
    (age : after.age = before.age) : Matures minorCycles before after where
  generation_le := generation ▸ Generation.le_refl after.generation
  age_le := age ▸ Nat.le_refl after.age
  age_le_add := age ▸ Nat.le_add_right after.age minorCycles
  settled := fun old => ⟨generation.trans old, age⟩
  unchanged := fun _ => ⟨generation, age⟩

theorem trans (earlier : Matures first before middle) (later : Matures second middle after) :
    Matures (first + second) before after where
  generation_le := Generation.le_trans earlier.generation_le later.generation_le
  age_le := Nat.le_trans earlier.age_le later.age_le
  age_le_add := by
    have bounded := earlier.age_le_add
    have boundedLater := later.age_le_add
    omega
  settled := by
    intro old
    obtain ⟨stillOld, age⟩ := earlier.settled old
    obtain ⟨oldAfter, ageAfter⟩ := later.settled stillOld
    exact ⟨oldAfter, ageAfter.trans age⟩
  unchanged := by
    intro none
    obtain ⟨noneEarlier, noneLater⟩ := Nat.add_eq_zero_iff.mp none
    obtain ⟨generation, age⟩ := earlier.unchanged noneEarlier
    obtain ⟨generationAfter, ageAfter⟩ := later.unchanged noneLater
    exact ⟨generationAfter.trans generation, ageAfter.trans age⟩

end Matures

theorem Aged.of_same {before after : Record} (aged : before.Aged)
    (generation : after.generation = before.generation) (age : after.age = before.age) :
    after.Aged := by
  constructor
  · exact age ▸ aged.age_le
  · rw [generation, age]
    exact aged.age_eq_zero_iff

/-- A young object that is moved comes to a generation that is not younger, and it
becomes older by one unless it has the greatest age. -/
theorem matures_evacuated {record : Record} (young : record.generation ≠ .old)
    (aged : record.Aged) (fate : Fate) (target : Side) (place address : Nat) :
    Matures 1 record { record.evacuated (fate.destination target) place with address } := by
  have bounded := aged.age_le
  cases fate with
  | retained => exact .of_same 1 rfl rfl
  | copied =>
      refine ⟨?_, ?_, ?_, fun old => absurd old young, fun none => absurd none Nat.one_ne_zero⟩
      · change record.generation ≤ Generation.survivor
        cases here : record.generation with
        | eden => decide
        | survivor => decide
        | old => exact absurd here young
      · change record.age ≤ min (record.age + 1) maxAge
        omega
      · exact Nat.min_le_left _ _
  | promoted early =>
      refine ⟨?_, ?_, ?_, fun old => absurd old young, fun none => absurd none Nat.one_ne_zero⟩
      · change record.generation ≤ Generation.old
        cases record.generation <;> decide
      · change record.age ≤ min (record.age + 1) maxAge
        omega
      · exact Nat.min_le_left _ _

theorem aged_evacuated {record : Record} (aged : record.Aged) (fate : Fate) (target : Side)
    (place address : Nat) :
    Aged { record.evacuated (fate.destination target) place with address } := by
  have older : record.nextAge ≤ maxAge ∧ record.nextAge ≠ 0 := by
    unfold nextAge maxAge
    omega
  cases fate with
  | retained => exact aged.of_same rfl rfl
  | copied => exact ⟨older.1, fun none => absurd none older.2, fun eden => by cases eden⟩
  | promoted early => exact ⟨older.1, fun none => absurd none older.2, fun eden => by cases eden⟩

end Record

namespace Heap

variable {Source : Type} [MemorySource Source]

/-! ## Operations -/

def Aged (heap : Heap Source) : Prop :=
  ∀ handle record, heap.directory.get? handle = some record → record.Aged

def Operation.isMinorCycle : Operation → Bool
  | .minorCycle _ _ => true
  | _ => false

/-- Where an object that is live after an operation comes from. -/
theorem Sound.origin_of_perform {heap after : Heap Source} (sound : heap.Sound)
    {operation : Operation} (ran : heap.perform operation = .ok after) {handle : Handle}
    {record : Record} (found : after.directory.get? handle = some record) :
    (heap.directory.get? handle = none ∧ record.generation = .eden ∧ record.age = 0) ∨
      ∃ before, heap.directory.get? handle = some before ∧
        ((record.generation = before.generation ∧ record.age = before.age) ∨
          (operation.isMinorCycle = true ∧ before.generation ≠ .old ∧
            ∃ (fate : Fate) (target : Side) (place address : Nat), record =
              { before.evacuated (fate.destination target) place with address })) := by
  cases perform_eq_ok ran with
  | allocate allocated =>
      rcases tryAllocate_eq_ok allocated with ⟨_, rfl⟩ | ⟨new, room, _, fresh, _, _, rfl⟩
      · exact .inr ⟨record, found, .inl ⟨rfl, rfl⟩⟩
      rw [get?_withNew fresh] at found
      split at found
      · rename_i same
        rw [Option.some.injEq] at found
        subst found
        exact .inl ⟨same ▸ sound.consistent.directory.get?_fresh fresh, rfl, rfl⟩
      · exact .inr ⟨record, found, .inl ⟨rfl, rfl⟩⟩
  | store stored =>
      rcases store_eq_ok stored with ⟨_, _, rfl⟩ | ⟨_, _, _, cards, barrier, _, _, _, rfl⟩
      · exact .inr ⟨record, found, .inl ⟨rfl, rfl⟩⟩
      rw [get?_withField] at found
      split at found
      · rename_i same
        obtain ⟨before, beforeFound, rfl⟩ := Option.map_eq_some_iff.mp found
        exact .inr ⟨before, same ▸ beforeFound, .inl ⟨rfl, rfl⟩⟩
      · exact .inr ⟨record, found, .inl ⟨rfl, rfl⟩⟩
  | minorCycle cycled =>
      obtain ⟨_, stages, run⟩ := minorCycle_eq_ok cycled
      obtain ⟨before, beforeFound, ⟨_, rfl⟩ | ⟨young, fate, place, address, _, rfl⟩⟩ :=
        run.origin_after sound.consistent found
      · exact .inr ⟨record, beforeFound, .inl ⟨rfl, rfl⟩⟩
      · exact .inr ⟨before, beforeFound, .inr ⟨rfl, young, fate, _, place, address, rfl⟩⟩
  | majorCycle cycled =>
      obtain ⟨_, _, stages, run⟩ := majorCycle_eq_ok cycled
      have exact := run.exact sound
      have live := Directory.isLive_iff.mpr ⟨record, found⟩
      obtain ⟨before, beforeFound⟩ := Directory.isLive_iff.mp ((exact.live_iff handle).mp live).1
      obtain ⟨address, same, _⟩ := exact.kept handle before beforeFound live
      rw [found, Option.some.injEq] at same
      subst same
      exact .inr ⟨before, beforeFound, .inl ⟨rfl, rfl⟩⟩
  | setThreshold threshold =>
      rw [directory_setThreshold] at found
      exact .inr ⟨record, found, .inl ⟨rfl, rfl⟩⟩

theorem Aged.perform {heap after : Heap Source} (aged : heap.Aged) (sound : heap.Sound)
    {operation : Operation} (ran : heap.perform operation = .ok after) : after.Aged := by
  intro handle record found
  rcases sound.origin_of_perform ran found with
    ⟨_, generation, age⟩ | ⟨before, beforeFound, ⟨generation, age⟩ | ⟨_, _, moved⟩⟩
  · constructor
    · rw [age]
      exact Nat.zero_le maxAge
    · exact ⟨fun _ => generation, fun _ => age⟩
  · exact (aged handle before beforeFound).of_same generation age
  · obtain ⟨fate, target, place, address, rfl⟩ := moved
    exact Record.aged_evacuated (aged handle before beforeFound) fate target place address

theorem Attainable.aged {heap : Heap Source} (attainable : heap.Attainable) : heap.Aged := by
  obtain ⟨settings, memory, initial, operations, created, performed⟩ := attainable
  refine (Checked.foldlM_induction (fun _ current => Heap.Sound current ∧ Heap.Aged current)
    performed ⟨sound_of_create created, ?_⟩ ?_).2
  · -- A new heap has no objects.
    intro handle record found
    rw [(create_eq_ok created).2.1] at found
    simp at found
  · intro seen operation rest current next split holds stepped
    exact ⟨holds.1.perform stepped, holds.2.perform holds.1 stepped⟩

def minorCycles (operations : List Operation) : Nat :=
  operations.countP Operation.isMinorCycle

theorem Sound.matures_of_perform {heap after : Heap Source} (sound : heap.Sound)
    (aged : heap.Aged) {operation : Operation} (ran : heap.perform operation = .ok after)
    {handle : Handle} {before record : Record}
    (beforeFound : heap.directory.get? handle = some before)
    (found : after.directory.get? handle = some record) :
    Record.Matures (minorCycles [operation]) before record := by
  rcases sound.origin_of_perform ran found with
    ⟨missing, _⟩ | ⟨same, sameFound, ⟨generation, age⟩ | ⟨minor, young, moved⟩⟩
  · rw [missing] at beforeFound
    cases beforeFound
  · rw [beforeFound, Option.some.injEq] at sameFound
    subst sameFound
    exact .of_same _ generation age
  · rw [beforeFound, Option.some.injEq] at sameFound
    subst sameFound
    obtain ⟨fate, target, place, address, rfl⟩ := moved
    have one : minorCycles [operation] = 1 := by simp [minorCycles, minor]
    rw [one]
    exact Record.matures_evacuated young (aged handle before beforeFound) fate target place address

/-! ## Runs -/

/-- An object stays live from the beginning of a run to its end. -/
def StaysLive (heap : Heap Source) (handle : Handle) (operations : List Operation) : Prop :=
  ∀ earlier later middle, operations = earlier ++ later →
    heap.performAll earlier = .ok middle → middle.directory.isLive handle = true

theorem Sound.matures_of_performAll {heap after : Heap Source} (sound : heap.Sound)
    (aged : heap.Aged) {operations : List Operation}
    (ran : heap.performAll operations = .ok after) {handle : Handle}
    (stays : heap.StaysLive handle operations) {before record : Record}
    (beforeFound : heap.directory.get? handle = some before)
    (found : after.directory.get? handle = some record) :
    Record.Matures (minorCycles operations) before record := by
  induction operations generalizing heap before with
  | nil =>
      cases ran
      rw [beforeFound, Option.some.injEq] at found
      subst found
      exact .of_same _ rfl rfl
  | cons operation rest ih =>
      obtain ⟨next, stepped, ran⟩ := performAll_cons_eq_ok.mp ran
      have staysLater : next.StaysLive handle rest := by
        intro earlier later middle split followed
        refine stays (operation :: earlier) later middle ?_
          (performAll_cons_eq_ok.mpr ⟨next, stepped, followed⟩)
        rw [split, List.cons_append]
      obtain ⟨between, betweenFound⟩ :=
        Directory.isLive_iff.mp (staysLater [] rest next rfl rfl)
      have step := sound.matures_of_perform aged stepped beforeFound betweenFound
      have run := ih (Sound.perform sound stepped) (Aged.perform aged sound stepped) ran staysLater
        betweenFound
      have counts : minorCycles (operation :: rest) =
          minorCycles [operation] + minorCycles rest := by
        unfold minorCycles
        rw [← List.countP_append, List.singleton_append]
      rw [counts]
      exact step.trans run

/-- How the objects of a heap age: now, in each operation, and in whole runs. -/
structure AgesForward (heap : Heap Source) : Prop where
  aged : ∀ handle record, heap.directory.get? handle = some record → record.Aged
  step : ∀ operation after, heap.perform operation = .ok after → ∀ handle before record,
    heap.directory.get? handle = some before → after.directory.get? handle = some record →
    Record.Matures (minorCycles [operation]) before record
  run : ∀ operations after, heap.performAll operations = .ok after → ∀ handle before record,
    heap.StaysLive handle operations →
    heap.directory.get? handle = some before → after.directory.get? handle = some record →
    Record.Matures (minorCycles operations) before record

/-- After any operations the ages of all objects fit their generations, and whatever
follows, no object becomes younger. -/
theorem generations_move_forward {heap : Heap Source} (attainable : heap.Attainable) :
    heap.AgesForward where
  aged := attainable.aged
  step := fun _ _ ran _ _ _ beforeFound found =>
    attainable.sound.matures_of_perform attainable.aged ran beforeFound found
  run := fun _ _ ran _ _ _ stays beforeFound found =>
    attainable.sound.matures_of_performAll attainable.aged ran stays beforeFound found

/-- The second minor cycle promotes the object. -/
theorem generations_move_forward_when_promoted :
    ∃ (heap after : Heap WindowedMemory) (before record : Record), heap.Attainable ∧
      heap.perform (.minorCycle .fresh [firstHandle]) = .ok after ∧
      heap.directory.get? firstHandle = some before ∧ before.generation = .survivor ∧
      after.directory.get? firstHandle = some record ∧ record.generation = .old ∧
      record.Aged ∧ Record.Matures 1 before record := by
  obtain ⟨heap, attainable, facts⟩ := attainable_of_leadsTo
    (show leadsTo smallSettings (WindowedMemory.fresh none) (promotingOperations.take 2)
      (fun heap => match heap.perform (.minorCycle .fresh [firstHandle]) with
        | .ok after =>
          ((heap.directory.get? firstHandle).any fun before =>
            decide (before.generation = .survivor)) &&
          (after.directory.get? firstHandle).any fun record =>
            decide (record.generation = .old)
        | .error _ => false) = true by decide +kernel)
  cases ran : heap.perform (.minorCycle .fresh [firstHandle]) with
  | error trap => simp [ran] at facts
  | ok after =>
      simp only [ran, Bool.and_eq_true, Option.any_eq_true, decide_eq_true_eq] at facts
      obtain ⟨⟨before, beforeFound, survivor⟩, record, found, old⟩ := facts
      have forward := generations_move_forward attainable
      have attains : heap.Attains after :=
        ⟨[.minorCycle .fresh [firstHandle]], performAll_cons_eq_ok.mpr ⟨after, ran, rfl⟩⟩
      have forwardAfter := generations_move_forward (attainable.attains attains)
      exact ⟨heap, after, before, record, attainable, ran, beforeFound, survivor, found, old,
        forwardAfter.aged firstHandle record found,
        forward.step _ after ran firstHandle before record beforeFound found⟩

end Heap

end Tenure
