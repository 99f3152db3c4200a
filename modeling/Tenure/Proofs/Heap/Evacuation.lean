import Tenure.Heap.MinorCycle
import Tenure.Proofs.Directory.Epochs
import Tenure.Proofs.Heap.Growth

/-!
# Moving one survivor

A survivor goes to the old space if it is due for it and a place is found there.
Otherwise it is copied to the target, or left where it is if the target is full. Each
move puts the object at the frontier of its new space and changes nothing else.
-/

set_option autoImplicit false

namespace Tenure

def Record.nextAge (record : Record) : Nat := min (record.age + 1) maxAge

/-- The space that a survivor went to, if it was moved. -/
def Fate.destination (target : Side) : Fate → Option Space
  | .copied => some (.survivor target)
  | .promoted _ => some .old
  | .retained => none

/-- The record of an object that was moved to a space, or left in place. -/
def Record.evacuated (record : Record) (destination : Option Space) (address : Nat) : Record :=
  match destination with
  | some space =>
      { record with generation := space.generation, space, address, age := record.nextAge }
  | none => record

@[simp] theorem Record.evacuated_contents (record : Record) (destination : Option Space)
    (address : Nat) : (record.evacuated destination address).contents = record.contents := by
  cases destination <;> rfl

namespace Heap

variable {Source : Type}

def moved (heap : Heap Source) (handle : Handle) (space : Space) (place : Placement)
    (age : Nat) : Heap Source :=
  { heap with
    directory := heap.directory.update handle fun record =>
      { record with generation := space.generation, space, address := place.address, age }
  }.pushTo space handle place.size

theorem relocate_eq_ok {heap after : Heap Source} {handle : Handle} {generation : Generation}
    {space : Space} {place : Placement} {age : Nat}
    (ran : heap.relocate handle generation space place age = .ok after) :
    generation ≤ space.generation ∧ after = heap.moved handle space place age := by
  unfold relocate at ran
  split at ran
  · rename_i upward
    simp only [Except.ok.injEq] at ran
    exact ⟨upward, ran.symm⟩
  · simp at ran

theorem directory_moved (heap : Heap Source) (handle : Handle) (space : Space)
    (place : Placement) (age : Nat) :
    (heap.moved handle space place age).directory = heap.directory.update handle fun record =>
      { record with generation := space.generation, space, address := place.address, age } := by
  rw [moved, pushTo_eq_setArena, directory_setArena]

theorem get?_moved (heap : Heap Source) {handle : Handle} {record : Record}
    (found : heap.directory.get? handle = some record) (space : Space) (place : Placement)
    (other : Handle) :
    (heap.moved handle space place record.nextAge).directory.get? other =
      if other = handle then some (record.evacuated (some space) place.address)
      else heap.directory.get? other := by
  rw [directory_moved, Directory.get?_update, found]
  rfl

theorem arena_moved (heap : Heap Source) (handle : Handle) (space other : Space)
    (place : Placement) (age : Nat) :
    (heap.moved handle space place age).arena other =
      if other = space then (heap.arena space).push handle place.size
      else heap.arena other := by
  rw [moved, pushTo_eq_setArena, arena_setArena]
  rfl

@[simp] theorem settings_moved (heap : Heap Source) (handle : Handle) (space : Space)
    (place : Placement) (age : Nat) :
    (heap.moved handle space place age).settings = heap.settings := by
  simp [moved, pushTo_eq_setArena]

@[simp] theorem holding_moved (heap : Heap Source) (handle : Handle) (space : Space)
    (place : Placement) (age : Nat) :
    (heap.moved handle space place age).holding = heap.holding := by
  simp [moved, pushTo_eq_setArena]

@[simp] theorem threshold_moved (heap : Heap Source) (handle : Handle) (space : Space)
    (place : Placement) (age : Nat) :
    (heap.moved handle space place age).threshold = heap.threshold := by
  simp [moved, pushTo_eq_setArena]

@[simp] theorem cards_moved (heap : Heap Source) (handle : Handle) (space : Space)
    (place : Placement) (age : Nat) :
    (heap.moved handle space place age).cards = heap.cards := by
  simp [moved, pushTo_eq_setArena]

theorem fills_moved {heap : Heap Source} {handle : Handle} {record : Record} {space : Space}
    {place : Placement} (found : heap.directory.get? handle = some record)
    (whole : WholeGranules record.size)
    (placed : (heap.arena space).placement? record.size = .ok (some place)) {other : Space}
    (fills : heap.directory.Fills other (heap.arena other)) (outside : record.space ≠ other) :
    (heap.moved handle space place record.nextAge).directory.Fills other
      ((heap.moved handle space place record.nextAge).arena other) := by
  have lookup := get?_moved heap found space place
  have here := (lookup handle).trans (if_pos rfl)
  have others : ∀ different, different ≠ handle →
      (heap.moved handle space place record.nextAge).directory.get? different =
        heap.directory.get? different :=
    fun different unequal => (lookup different).trans (if_neg unequal)
  have absent : handle ∉ (heap.arena other).handles := by
    intro member
    obtain ⟨same, sameFound, inside⟩ := fills.mem_handles_iff.mp member
    rw [found, Option.some.injEq] at sameFound
    subst sameFound
    exact outside inside
  rw [arena_moved]
  split
  · rename_i same
    subst same
    obtain ⟨aligned, fits, address⟩ := Arena.placement?_eq_some placed
    have size := whole.eq_of_alignSize aligned
    rw [size] at fits ⊢
    exact fills.push whole fits absent here (by rw [← address]; rfl) others
  · rename_i different
    refine fills.of_change absent others fun current currentFound => ?_
    rw [here, Option.some.injEq] at currentFound
    subst currentFound
    exact Ne.symm different

/-- A survivor stays where it is or moves to the frontier of its destination. -/
inductive Rehoused (heap : Heap Source) (handle : Handle) (destination : Option Space) :
    Heap Source → Prop where
  | stays (nowhere : destination = none) : Rehoused heap handle destination heap
  | moves {record : Record} {space : Space} {place : Placement}
      (found : heap.directory.get? handle = some record) (goes : destination = some space)
      (placed : (heap.arena space).placement? record.size = .ok (some place)) :
      Rehoused heap handle destination (heap.moved handle space place record.nextAge)

namespace Rehoused

variable {heap after : Heap Source} {handle : Handle} {destination : Option Space}

theorem settings (rehoused : heap.Rehoused handle destination after) :
    after.settings = heap.settings := by
  cases rehoused with
  | stays _ => rfl
  | moves _ _ _ => exact settings_moved ..

theorem threshold (rehoused : heap.Rehoused handle destination after) :
    after.threshold = heap.threshold := by
  cases rehoused with
  | stays _ => rfl
  | moves _ _ _ => exact threshold_moved ..

theorem holding (rehoused : heap.Rehoused handle destination after) :
    after.holding = heap.holding := by
  cases rehoused with
  | stays _ => rfl
  | moves _ _ _ => exact holding_moved ..

theorem cards (rehoused : heap.Rehoused handle destination after) :
    after.cards = heap.cards := by
  cases rehoused with
  | stays _ => rfl
  | moves _ _ _ => exact cards_moved ..

theorem spans (rehoused : heap.Rehoused handle destination after)
    (spans : heap.cards.Spans heap.old) : after.cards.Spans after.old := by
  rw [rehoused.cards]
  have same : after.old.base = heap.old.base ∧ after.old.capacity = heap.old.capacity := by
    cases rehoused with
    | stays _ => exact ⟨rfl, rfl⟩
    | @moves record space place found goes placed =>
        have arena := heap.arena_moved handle space .old place record.nextAge
        simp only [Heap.arena] at arena
        rw [arena]
        split
        · rename_i old
          subst old
          exact ⟨rfl, rfl⟩
        · exact ⟨rfl, rfl⟩
  exact ⟨spans.wellFormed, spans.base.trans same.1.symm, spans.extent.trans same.2.symm⟩

theorem arena (rehoused : heap.Rehoused handle destination after) {space : Space}
    (elsewhere : destination ≠ some space) : after.arena space = heap.arena space := by
  cases rehoused with
  | stays _ => rfl
  | moves _ goes _ =>
      rw [arena_moved, if_neg]
      intro same
      exact elsewhere (same ▸ goes)

theorem wellFormed (rehoused : heap.Rehoused handle destination after)
    (wellFormed : heap.directory.WellFormed) : after.directory.WellFormed := by
  cases rehoused with
  | stays _ => exact wellFormed
  | moves _ _ _ =>
      rw [directory_moved]
      exact wellFormed.update handle _

theorem occupancy (rehoused : heap.Rehoused handle destination after) :
    after.directory.occupancy = heap.directory.occupancy := by
  cases rehoused with
  | stays _ => rfl
  | moves _ _ _ => rw [directory_moved, Directory.occupancy_update]

theorem get?_other (rehoused : heap.Rehoused handle destination after) {other : Handle}
    (different : other ≠ handle) :
    after.directory.get? other = heap.directory.get? other := by
  cases rehoused with
  | stays _ => rfl
  | moves found _ _ => rw [get?_moved heap found, if_neg different]

theorem get?_self (rehoused : heap.Rehoused handle destination after) {record : Record}
    (found : heap.directory.get? handle = some record) :
    ∃ address, after.directory.get? handle = some (record.evacuated destination address) := by
  cases rehoused with
  | stays nowhere => exact ⟨record.address, by rw [found, nowhere]; rfl⟩
  | @moves same space place sameFound goes _ =>
      rw [found, Option.some.injEq] at sameFound
      subst sameFound
      exact ⟨place.address, by rw [get?_moved heap found, if_pos rfl, goes]⟩

theorem fills (rehoused : heap.Rehoused handle destination after) {space : Space}
    (fills : heap.directory.Fills space (heap.arena space))
    (outside : ∀ record, heap.directory.get? handle = some record →
      WholeGranules record.size ∧ record.space ≠ space) :
    after.directory.Fills space (after.arena space) := by
  cases rehoused with
  | stays _ => exact fills
  | moves found _ placed =>
      obtain ⟨whole, away⟩ := outside _ found
      exact fills_moved found whole placed fills away

end Rehoused

section Step

variable [MemorySource Source]

/-- The old space is the first choice for a survivor: it is old enough, or the target
would be filled above its limit. -/
def PrefersOld (heap : Heap Source) (target : Side) (record : Record) : Prop :=
  ∃ fits, (heap.survivor target).fitsWithin record.size heap.settings.survivorOccupancyLimit =
      .ok fits ∧ (heap.threshold ≤ record.nextAge ∨ fits = false)

/-- A survivor does not go to the old space, and whether that failed a promotion. -/
def StaysYoung (heap : Heap Source) (target : Side) (record : Record) (failed : Bool)
    (after : Heap Source) : Prop :=
  (¬ heap.PrefersOld target record ∧ failed = false ∧ after = heap) ∨
    (heap.PrefersOld target record ∧ failed = true ∧
      heap.placementInOld record.size = .ok (none, after))

/-- What can happen to one survivor. -/
inductive Evacuates (heap : Heap Source) (target : Side) (handle : Handle) :
    Fate → Bool → Heap Source → Prop where
  | stale (unknown : heap.directory.get? handle = none) :
      Evacuates heap target handle .retained false heap
  | promoted {record : Record} {place : Placement} {enlarged : Heap Source}
      (found : heap.directory.get? handle = some record)
      (due : heap.PrefersOld target record)
      (placed : heap.placementInOld record.size = .ok (some place, enlarged)) :
      Evacuates heap target handle (.promoted (record.nextAge < heap.threshold)) false
        (enlarged.moved handle .old place record.nextAge)
  | copied {record : Record} {place : Placement} {failed : Bool} {enlarged : Heap Source}
      (found : heap.directory.get? handle = some record)
      (young : heap.StaysYoung target record failed enlarged)
      (placed : (enlarged.survivor target).placement? record.size = .ok (some place)) :
      Evacuates heap target handle .copied failed
        (enlarged.moved handle (.survivor target) place record.nextAge)
  | retained {record : Record} {failed : Bool} {enlarged : Heap Source}
      (found : heap.directory.get? handle = some record)
      (young : heap.StaysYoung target record failed enlarged)
      (full : (enlarged.survivor target).placement? record.size = .ok none) :
      Evacuates heap target handle .retained failed enlarged

private theorem evacuates_of_copy {heap enlarged after : Heap Source} {target : Side}
    {handle : Handle} {record : Record} {failed : Bool} {fate : Fate}
    (found : heap.directory.get? handle = some record)
    (young : heap.StaysYoung target record failed enlarged)
    (ran : enlarged.copy handle record target record.nextAge = .ok (fate, after)) :
    heap.Evacuates target handle fate failed after := by
  unfold copy at ran
  rw [Checked.bind_eq_ok_iff] at ran
  obtain ⟨answer, placed, ran⟩ := ran
  cases answer with
  | none =>
      simp only [Checked.pure_eq_ok_iff, Prod.mk.injEq] at ran
      obtain ⟨rfl, rfl⟩ := ran
      exact .retained found young placed
  | some place =>
      simp only [Checked.bind_eq_ok_iff, Checked.pure_eq_ok_iff, Prod.mk.injEq] at ran
      obtain ⟨_, relocated, rfl, rfl⟩ := ran
      obtain ⟨_, rfl⟩ := relocate_eq_ok relocated
      exact .copied found young placed

theorem evacuate_eq_ok {heap after : Heap Source} {target : Side} {handle : Handle}
    {fate : Fate} {failed : Bool} (spans : heap.cards.Spans heap.old)
    (ran : heap.evacuate target handle = .ok (fate, failed, after)) :
    heap.Evacuates target handle fate failed after := by
  unfold evacuate at ran
  cases found : heap.directory.get? handle with
  | none =>
      simp only [found, Checked.pure_eq_ok_iff, Prod.mk.injEq] at ran
      obtain ⟨rfl, rfl, rfl⟩ := ran
      exact .stale found
  | some record =>
      simp only [found, Checked.bind_eq_ok_iff] at ran
      obtain ⟨fits, measured, ran⟩ := ran
      change (if heap.threshold ≤ record.nextAge || !fits then _ else _) = _ at ran
      split at ran
      · rename_i asked
        have due : heap.PrefersOld target record :=
          ⟨fits, measured, by simpa using asked⟩
        rw [Checked.bind_eq_ok_iff] at ran
        obtain ⟨⟨answer, enlarged⟩, placed, ran⟩ := ran
        cases answer with
        | none =>
            simp only [Checked.bind_eq_ok_iff, Checked.pure_eq_ok_iff, Prod.mk.injEq] at ran
            obtain ⟨⟨_, _⟩, copied, rfl, rfl, rfl⟩ := ran
            exact evacuates_of_copy found (.inr ⟨due, rfl, placed⟩) copied
        | some place =>
            simp only [Checked.bind_eq_ok_iff, Checked.pure_eq_ok_iff, Prod.mk.injEq] at ran
            obtain ⟨_, relocated, rfl, rfl, rfl⟩ := ran
            obtain ⟨_, rfl⟩ := relocate_eq_ok relocated
            rw [threshold_moved, (placementInOld_eq_ok spans placed).1.threshold]
            exact .promoted found due placed
      · rename_i unasked
        have undue : ¬ heap.PrefersOld target record := by
          intro prefers
          obtain ⟨other, otherMeasured, asked⟩ := prefers
          rw [measured, Except.ok.injEq] at otherMeasured
          subst otherMeasured
          exact unasked (by simpa using asked)
        simp only [Checked.bind_eq_ok_iff, Checked.pure_eq_ok_iff, Prod.mk.injEq] at ran
        obtain ⟨⟨_, _⟩, copied, rfl, rfl, rfl⟩ := ran
        exact evacuates_of_copy found (.inl ⟨undue, rfl, rfl⟩) copied

theorem StaysYoung.enlarges {heap after : Heap Source} {target : Side} {record : Record}
    {failed : Bool} (young : heap.StaysYoung target record failed after)
    (spans : heap.cards.Spans heap.old) : heap.Enlarges after := by
  rcases young with ⟨_, _, rfl⟩ | ⟨_, _, placed⟩
  · exact .refl spans
  · exact (placementInOld_eq_ok spans placed).1

theorem StaysYoung.grows {heap after : Heap Source} {target : Side} {record : Record}
    {failed : Bool} (young : heap.StaysYoung target record failed after) : heap.Grows after := by
  rcases young with ⟨_, _, rfl⟩ | ⟨_, _, placed⟩
  · exact .unasked
  · exact grows_of_placementInOld placed

/-- The old space may have grown before the survivor is rehoused. -/
theorem Evacuates.split {heap after : Heap Source} {target : Side} {handle : Handle}
    {fate : Fate} {failed : Bool} (step : heap.Evacuates target handle fate failed after)
    (spans : heap.cards.Spans heap.old) :
    ∃ enlarged, heap.Enlarges enlarged ∧
      enlarged.Rehoused handle (fate.destination target) after := by
  cases step with
  | stale unknown => exact ⟨heap, .refl spans, .stays rfl⟩
  | promoted found due placed =>
      obtain ⟨larger, next⟩ := placementInOld_eq_ok spans placed
      exact ⟨_, larger, .moves (larger.directory ▸ found) rfl (next _ rfl)⟩
  | copied found young placed =>
      have larger := young.enlarges spans
      exact ⟨_, larger, .moves (larger.directory ▸ found) rfl placed⟩
  | retained found young full => exact ⟨_, young.enlarges spans, .stays rfl⟩

end Step

end Heap

end Tenure
