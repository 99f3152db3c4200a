import Tenure.Proofs.Arena.Bounds
import Tenure.Proofs.Arena.Overlap
import Tenure.Proofs.Handle

/-!
# Arenas that operations lead to

An arena is attainable if operations lead to it from an empty one. Objects may be placed
under any handles, also under repeated ones, and a slide may keep whichever it likes. The
residents of an attainable arena are packed, so bisection finds those that meet a range; and
each of them has an address, so a slide answers.
-/

set_option autoImplicit false

namespace Tenure.Arena

/-- What can be asked of an arena. -/
inductive Operation where
  | bump (handle : Handle) (size : Nat)
  | slide (keep : Handle → Bool)
  | grow (additional : Nat)

/-- The arena after an operation, whether an object found a place or not. -/
def perform (arena : Arena) : Operation → Checked Arena
  | .bump handle size => do
    let (_, arena) ← arena.bump handle size
    return arena
  | .slide keep => do
    let (_, arena) ← arena.slide keep
    return arena
  | .grow additional => arena.grow additional

def performAll (arena : Arena) (operations : List Operation) : Checked Arena :=
  operations.foldlM perform arena

/-- Operations lead to an arena from an empty one without a trap. -/
def Attainable (arena : Arena) : Prop :=
  ∃ space base capacity operations, base < Word.limit ∧ capacity < Word.limit ∧
    (empty space base capacity).performAll operations = .ok arena

/-- What the operations keep: the residents are packed, and each of them has an address. -/
structure Sound (arena : Arena) : Prop where
  wellFormed : arena.WellFormed
  fits : arena.capacity < Word.limit
  addresses : ∀ resident ∈ arena.residents.toList, arena.base + resident.offset < Word.limit

variable {arena after : Arena}

theorem sound_empty (space : Space) (base : Nat) {capacity : Nat}
    (fits : capacity < Word.limit) : (empty space base capacity).Sound where
  wellFormed := wellFormed_empty space base capacity
  fits := fits
  addresses := by simp [empty]

/-! ## One operation -/

theorem frontier_lt_of_placement? {size : Nat} {place : Placement}
    (ran : arena.placement? size = .ok (some place)) : arena.base + arena.used < Word.limit := by
  unfold placement? at ran
  rw [Checked.bind_eq_ok_iff] at ran
  obtain ⟨room, _, answered⟩ := ran
  cases room with
  | none => simp [Checked.pure_eq_ok_iff] at answered
  | some room =>
      simp only [frontier, Checked.bind_eq_ok_iff, Word.add_eq_ok_iff] at answered
      obtain ⟨_, ⟨below, _⟩, _⟩ := answered
      exact below

/-- An object that has no room is not placed; any other one goes to the frontier. -/
theorem bump_eq_ok {handle : Handle} {size : Nat} {answer : Option Nat}
    (ran : arena.bump handle size = .ok (answer, after)) :
    (answer = none ∧ after = arena) ∨
      ∃ place, arena.placement? size = .ok (some place) ∧ answer = some place.address ∧
        after = arena.push handle place.size := by
  unfold bump at ran
  rw [Checked.bind_eq_ok_iff] at ran
  obtain ⟨place, placed, answered⟩ := ran
  cases place with
  | none =>
      simp only [Checked.pure_eq_ok_iff, Prod.mk.injEq] at answered
      exact .inl ⟨answered.1.symm, answered.2.symm⟩
  | some place =>
      simp only [Checked.pure_eq_ok_iff, Prod.mk.injEq] at answered
      exact .inr ⟨place, placed, answered.1.symm, answered.2.symm⟩

namespace Sound

theorem bump (sound : arena.Sound) {handle : Handle} {size : Nat} {answer : Option Nat}
    (ran : arena.bump handle size = .ok (answer, after)) : after.Sound := by
  rcases bump_eq_ok ran with ⟨_, rfl⟩ | ⟨place, placed, _, rfl⟩
  · exact sound
  · obtain ⟨aligned, fits, _⟩ := placement?_eq_some placed
    refine ⟨sound.wellFormed.push (wholeGranules_of_alignSize aligned) fits handle, sound.fits,
      fun resident member => ?_⟩
    rw [toList_push, List.mem_append, List.mem_singleton] at member
    rcases member with earlier | rfl
    · exact sound.addresses resident earlier
    · exact frontier_lt_of_placement? placed

theorem slid (sound : arena.Sound) (keep : Handle → Bool) : (arena.slid keep).Sound where
  wellFormed := sound.wellFormed.slid keep
  fits := sound.fits
  addresses := by
    intro resident member
    rw [toList_slid] at member
    obtain ⟨shift, selected, rfl⟩ := List.mem_map.mp member
    have lower := sound.wellFormed.shift_le selected
    have below := sound.addresses shift.1 (mem_of_mem_shifts selected).1
    rw [base_slid, replaced_offset]
    omega

theorem grow (sound : arena.Sound) {additional : Nat}
    (ran : arena.grow additional = .ok after) : after.Sound := by
  simp only [Arena.grow, Checked.bind_eq_ok_iff, Word.add_eq_ok_iff,
    Checked.pure_eq_ok_iff] at ran
  obtain ⟨capacity, ⟨fits, rfl⟩, rfl⟩ := ran
  exact ⟨sound.wellFormed.widen (Nat.le_add_right _ _), fits, sound.addresses⟩

theorem perform (sound : arena.Sound) {operation : Operation}
    (ran : arena.perform operation = .ok after) : after.Sound := by
  cases operation with
  | bump handle size =>
      simp only [Arena.perform, Checked.bind_eq_ok_iff, Checked.pure_eq_ok_iff] at ran
      obtain ⟨⟨answer, final⟩, ran, rfl⟩ := ran
      exact sound.bump ran
  | slide keep =>
      simp only [Arena.perform, Checked.bind_eq_ok_iff, Checked.pure_eq_ok_iff] at ran
      obtain ⟨⟨moves, final⟩, ran, rfl⟩ := ran
      rw [(slide_eq_ok ran).2]
      exact sound.slid keep
  | grow additional => exact sound.grow ran

/-- No slide stops at a trap, so it moves what it keeps. -/
theorem slide_eq (sound : arena.Sound) (keep : Handle → Bool) :
    arena.slide keep =
      .ok (relocations arena.base (arena.shifts keep), arena.slid keep) := by
  obtain ⟨⟨moves, after⟩, ran⟩ :=
    sound.wellFormed.answers_slide_of_addresses sound.fits sound.addresses keep
  obtain ⟨rfl, rfl⟩ := slide_eq_ok ran
  exact ran

end Sound

/-! ## Runs -/

theorem Attainable.sound (attainable : arena.Attainable) : arena.Sound := by
  obtain ⟨space, base, capacity, operations, _, fits, ran⟩ := attainable
  exact Checked.foldlM_induction (fun _ current => Arena.Sound current) ran
    (sound_empty space base fits) fun _ _ _ _ _ _ current stepped => current.perform stepped

/-- Whatever operations came before, bisection finds exactly the residents whose storage
meets a range, in address order. -/
theorem overlapping_finds_storage (attainable : arena.Attainable) (start stop : Nat) :
    arena.residents.toList.Pairwise (fun earlier later => earlier.finish ≤ later.offset) ∧
      arena.overlapping start stop = (arena.residents.toList.filter fun resident =>
        arena.base + resident.offset < stop &&
          arena.base + resident.offset + resident.size > start).map Resident.handle := by
  have wellFormed := attainable.sound.wellFormed
  refine ⟨wellFormed.packed.pairwise, ?_⟩
  rw [wellFormed.overlapping_eq, overlappingByScan]
  refine congrArg (List.map Resident.handle) (List.filter_congr fun resident _ => ?_)
  rw [Resident.finish, Nat.add_assoc]

/-! ## A run -/

/-- Three objects are placed, two of them under the same handle. The third one slides down
over the second one, and another one is placed after it. -/
def slidingOperations : List Operation :=
  [.bump (.ofSlot 0) 16, .bump (.ofSlot 1) 20, .bump (.ofSlot 0) 8,
    .slide fun handle => handle = .ofSlot 0, .grow 64, .bump (.ofSlot 1) 40]

/-- Whether operations on an empty arena lead to one that passes a test. -/
def leadsTo (base capacity : Nat) (operations : List Operation) (test : Arena → Bool) : Bool :=
  decide (base < Word.limit ∧ capacity < Word.limit) &&
    ((empty .old base capacity).performAll operations).toOption.any test

theorem attainable_of_leadsTo {base capacity : Nat} {operations : List Operation}
    {test : Arena → Bool} (passes : leadsTo base capacity operations test = true) :
    ∃ arena : Arena, arena.Attainable ∧ test arena = true := by
  unfold leadsTo at passes
  rw [Bool.and_eq_true, decide_eq_true_eq] at passes
  obtain ⟨⟨addressed, fits⟩, passes⟩ := passes
  obtain ⟨arena, ran, passes⟩ := Checked.eq_ok_of_any passes
  exact ⟨arena, ⟨.old, base, capacity, operations, addressed, fits, ran⟩, passes⟩

/-- A range that ends inside the last object and begins inside the moved one. -/
theorem overlapping_finds_storage_after_slide : ∃ arena : Arena, arena.Attainable ∧
    arena.overlapping 4115 4125 = [.ofSlot 0, .ofSlot 1] ∧
      arena.residents.toList.Pairwise (fun earlier later => earlier.finish ≤ later.offset) ∧
      arena.overlapping 4115 4125 = (arena.residents.toList.filter fun resident =>
        arena.base + resident.offset < 4125 &&
          arena.base + resident.offset + resident.size > 4115).map Resident.handle := by
  obtain ⟨arena, attainable, found⟩ := attainable_of_leadsTo
    (show leadsTo 4096 64 slidingOperations
      (fun arena => arena.overlapping 4115 4125 = [.ofSlot 0, .ofSlot 1]) = true
      by decide +kernel)
  exact ⟨arena, attainable, of_decide_eq_true found,
    overlapping_finds_storage attainable 4115 4125⟩

end Tenure.Arena
