import Tenure.Proofs.Heap.Attainable

/-!
# Operations reshape the old space only

The young spaces keep their addresses and their capacities for good. The old space stays
at its base, and its capacity changes only where more room is asked for. So whatever holds
of the spaces of a heap, and is kept by these requests, is kept by every operation.
-/

set_option autoImplicit false

namespace Tenure.Heap

variable {Source : Type}

/-! ## Spaces that stay where they are -/

/-- The spaces of two heaps cover the same addresses, with the same memory behind them. -/
structure SameSpaces (heap after : Heap Source) : Prop where
  base : ∀ space, (after.arena space).base = (heap.arena space).base
  capacity : ∀ space, (after.arena space).capacity = (heap.arena space).capacity
  memory : after.memory = heap.memory
  cardSize : after.cards.cardSize = heap.cards.cardSize
  settings : after.settings = heap.settings

namespace SameSpaces

variable {heap middle after : Heap Source}

theorem refl (heap : Heap Source) : heap.SameSpaces heap :=
  ⟨fun _ => rfl, fun _ => rfl, rfl, rfl, rfl⟩

theorem trans (first : heap.SameSpaces middle) (second : middle.SameSpaces after) :
    heap.SameSpaces after where
  base := fun space => (second.base space).trans (first.base space)
  capacity := fun space => (second.capacity space).trans (first.capacity space)
  memory := second.memory.trans first.memory
  cardSize := second.cardSize.trans first.cardSize
  settings := second.settings.trans first.settings

theorem spans (same : heap.SameSpaces after) (cards : heap.cards.SameCards after.cards)
    (spans : heap.cards.Spans heap.old) : after.cards.Spans after.old where
  wellFormed := cards.wellFormed spans.wellFormed
  base := cards.base.trans (spans.base.trans (same.base .old).symm)
  extent := cards.extent.trans (spans.extent.trans (same.capacity .old).symm)

end SameSpaces

theorem sameSpaces_setArena (heap : Heap Source) (space : Space) {arena : Arena}
    (base : arena.base = (heap.arena space).base)
    (capacity : arena.capacity = (heap.arena space).capacity) :
    heap.SameSpaces (heap.setArena space arena) := by
  refine ⟨fun other => ?_, fun other => ?_, memory_setArena .., ?_, settings_setArena ..⟩
  · rw [arena_setArena]
    split
    · rename_i same
      rw [base, same]
    · rfl
  · rw [arena_setArena]
    split
    · rename_i same
      rw [capacity, same]
    · rfl
  · rw [cards_setArena]

theorem sameSpaces_of_arenas {heap after : Heap Source}
    (arenas : ∀ space, after.arena space = heap.arena space) (memory : after.memory = heap.memory)
    (cardSize : after.cards.cardSize = heap.cards.cardSize)
    (settings : after.settings = heap.settings) : heap.SameSpaces after where
  base := fun space => congrArg Arena.base (arenas space)
  capacity := fun space => congrArg Arena.capacity (arenas space)
  memory := memory
  cardSize := cardSize
  settings := settings

theorem sameSpaces_withDirectory (heap : Heap Source) (directory : Directory) :
    heap.SameSpaces { heap with directory } :=
  sameSpaces_of_arenas (arena_congr rfl rfl rfl rfl) rfl rfl rfl

theorem sameSpaces_withCards (heap : Heap Source) {cards : CardTable}
    (same : heap.cards.SameCards cards) : heap.SameSpaces { heap with cards } :=
  sameSpaces_of_arenas (arena_congr rfl rfl rfl rfl) rfl same.cardSize rfl

theorem sameSpaces_slidThrough (heap : Heap Source) (spaces : List Space)
    (keep : Handle → Bool) : heap.SameSpaces (heap.slidThrough spaces keep) := by
  unfold slidThrough
  induction spaces generalizing heap with
  | nil => exact .refl heap
  | cons space rest ih =>
      have first : heap.SameSpaces (heap.slidIn space keep) := by
        refine (heap.sameSpaces_withDirectory _).trans (sameSpaces_setArena _ space ?_ ?_)
        · rw [Arena.base_slid]
          exact congrArg Arena.base (arena_congr rfl rfl rfl rfl space)
        · rw [Arena.capacity_slid]
          exact congrArg Arena.capacity (arena_congr rfl rfl rfl rfl space)
      exact first.trans (ih (heap.slidIn space keep))

/-! ## Stages that keep the spaces -/

section Stages

variable {heap after : Heap Source}

theorem sameSpaces_withNew (heap : Heap Source) (handle : Handle) (size fieldCount : Nat) :
    heap.SameSpaces (heap.withNew handle size fieldCount) := by
  have pushed := sameSpaces_setArena
    { heap with directory := heap.directory.insert (heap.newRecord size fieldCount) } .eden
    (Arena.base_push heap.eden handle size) (Arena.capacity_push heap.eden handle size)
  exact (heap.sameSpaces_withDirectory _).trans pushed

theorem sameSpaces_of_store {holder : Handle} {index : Nat} {value : Option Handle}
    {answer : Answer Unit} (ran : heap.store holder index value = .ok (answer, after)) :
    heap.SameSpaces after := by
  rcases store_eq_ok ran with ⟨_, _, rfl⟩ | ⟨_, _, _, cards, barrier, _, _, passed, rfl⟩
  · exact .refl _
  · refine sameSpaces_of_arenas (arena_congr rfl rfl rfl rfl) rfl ?_ rfl
    rcases onStore_eq_ok passed with ⟨_, marked⟩ | ⟨_, _, rfl⟩
    · exact (CardTable.sameCards_of_mark marked).cardSize
    · rfl

theorem sameSpaces_moved (heap : Heap Source) (handle : Handle) (space : Space)
    (place : Placement) (age : Nat) : heap.SameSpaces (heap.moved handle space place age) := by
  rw [moved, pushTo_eq_setArena]
  refine (heap.sameSpaces_withDirectory _).trans (sameSpaces_setArena _ space ?_ ?_)
  · exact Arena.base_push ..
  · exact Arena.capacity_push ..

theorem sameSpaces_of_vacate {retained : HandleSet} (ran : heap.vacate retained = .ok after) :
    heap.SameSpaces after ∧ after.cards = heap.cards := by
  have slid := heap.sameSpaces_slidThrough [.eden, .survivor heap.holding] retained.contains
  rw [vacate_eq_ok ran]
  exact ⟨slid.trans (sameSpaces_of_arenas (arena_congr rfl rfl rfl rfl) rfl rfl rfl),
    cards_slidThrough⟩

theorem sameSpaces_of_remember {holders : List Handle}
    (ran : heap.remember holders = .ok after) :
    heap.SameSpaces after ∧ heap.cards.SameCards after.cards := by
  obtain ⟨cards, rfl, same, _⟩ := remember_eq_ok ran
  exact ⟨heap.sameSpaces_withCards same, same⟩

theorem MinorMarking.Run.sameSpaces_swept {marking : MinorMarking} {roots : List Handle}
    (run : marking.Run heap roots) : heap.SameSpaces (marking.swept heap) :=
  sameSpaces_of_arenas (marking.arena_swept heap) rfl
    (CardTable.scanAll_dirty run.scanned).1.cardSize rfl

theorem sameSpaces_of_compact {moves : List Relocation} (ran : heap.compact = .ok (moves, after)) :
    heap.SameSpaces after ∧ after.cards = heap.cards := by
  rw [(compact_eq_ok ran).2]
  exact ⟨heap.sameSpaces_slidThrough _ _, cards_slidThrough⟩

theorem sameSpaces_of_rebuilt {slid rebuilt : Heap Source} {holders : List Handle}
    (same : heap.SameSpaces slid) (cards : slid.cards = heap.cards)
    (ran : { slid with cards := slid.cards.clear }.remember holders = .ok rebuilt) :
    heap.SameSpaces rebuilt ∧ heap.cards.SameCards rebuilt.cards := by
  have cleared := CardTable.sameCards_clear slid.cards
  obtain ⟨spaces, marked⟩ := sameSpaces_of_remember ran
  exact ⟨(same.trans (slid.sameSpaces_withCards cleared)).trans spaces,
    cards ▸ cleared.trans marked⟩

end Stages

/-! ## Requests for more room -/

variable [MemorySource Source]

/-- Between two heaps the old space was asked to grow, any number of times, and the spaces
stayed the same otherwise. -/
inductive Reshapes : Heap Source → Heap Source → Prop where
  | same {heap after : Heap Source} (same : heap.SameSpaces after) : Reshapes heap after
  | grown {heap after : Heap Source} (spans : heap.cards.Spans heap.old)
      (grows : heap.Grows after) : Reshapes heap after
  | trans {heap middle after : Heap Source} (first : Reshapes heap middle)
      (second : Reshapes middle after) : Reshapes heap after

variable {heap after : Heap Source} {target : Side} {handle : Handle}

theorem Reshapes.refl (heap : Heap Source) : heap.Reshapes heap := .same (.refl heap)

theorem Evacuates.reshapes {fate : Fate} {failed : Bool} (spans : heap.cards.Spans heap.old)
    (step : heap.Evacuates target handle fate failed after) : heap.Reshapes after := by
  cases step with
  | stale _ => exact .refl heap
  | promoted _ _ placed =>
      exact .trans (.grown spans (grows_of_placementInOld placed)) (.same (sameSpaces_moved ..))
  | copied _ young _ => exact .trans (.grown spans young.grows) (.same (sameSpaces_moved ..))
  | retained _ young _ => exact .grown spans young.grows

theorem reshapes_of_evacuateAll {survivors : List Handle} {evacuation : Evacuation Source}
    (movable : heap.Movable target survivors)
    (ran : heap.evacuateAll target survivors = .ok evacuation) :
    heap.Reshapes evacuation.heap :=
  (evacuateAll_induction (fun _ current => heap.Reshapes current.heap) movable ran
    (.refl heap) fun _ _ _ _ _ _ _ _ holds reshapes _ evacuated =>
      reshapes.trans ((evacuate_eq_ok holds.cards evacuated).reshapes holds.cards)).2

theorem MinorStages.Run.reshapes {stages : MinorStages Source} {roots : List Handle}
    (run : stages.Run heap roots after) (consistent : heap.Consistent) :
    heap.Reshapes after := by
  obtain ⟨remembered, survival, remember, rfl⟩ := run.remembered
  have moved := reshapes_of_evacuateAll (run.movable consistent) run.evacuated
  have left := (sameSpaces_of_vacate run.vacate).1.trans (sameSpaces_of_remember remember).1
  have closed : remembered.SameSpaces { remembered with survival } :=
    sameSpaces_of_arenas (arena_congr rfl rfl rfl rfl) rfl rfl rfl
  exact .trans (.same run.sameSpaces_swept) (moved.trans (.same (left.trans closed)))

theorem MajorStages.Run.reshapes {stages : MajorStages} {roots : List Handle}
    {outcome : MajorOutcome} (run : stages.Run heap roots outcome after)
    (consistent : heap.Consistent) : heap.Reshapes after := by
  obtain ⟨rebuilt, _, remember, relieve⟩ := run.remembered
  have slid : heap.SameSpaces (stages.slid heap) :=
    (heap.sameSpaces_withDirectory stages.directory).trans (sameSpaces_slidThrough ..)
  obtain ⟨spaces, marked⟩ := sameSpaces_of_rebuilt slid cards_slidThrough remember
  exact .trans (.same spaces)
    (.grown (spaces.spans marked consistent.cards) (grows_of_relieve relieve))

theorem reshapes_of_perform (consistent : heap.Consistent) {operation : Operation}
    (ran : heap.perform operation = .ok after) : heap.Reshapes after := by
  cases perform_eq_ok ran with
  | allocate ran =>
      rcases tryAllocate_eq_ok ran with ⟨_, rfl⟩ | ⟨_, _, _, _, _, _, rfl⟩
      · exact .refl _
      · exact .same (sameSpaces_withNew ..)
  | store ran => exact .same (sameSpaces_of_store ran)
  | minorCycle ran =>
      obtain ⟨_, stages, run⟩ := minorCycle_eq_ok ran
      exact run.reshapes consistent
  | majorCycle ran =>
      obtain ⟨_, _, stages, run⟩ := majorCycle_eq_ok ran
      exact run.reshapes consistent
  | setThreshold threshold =>
      unfold Heap.setThreshold
      split
      · exact .same (sameSpaces_of_arenas (arena_congr rfl rfl rfl rfl) rfl rfl rfl)
      · exact .refl heap

end Tenure.Heap
