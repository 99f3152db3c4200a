import Tenure.Heap.Basic
import Tenure.Proofs.Cards.Holders
import Tenure.Proofs.Directory.Places

/-!
# Sound heaps

A heap is consistent if its directory, its arenas and its card table agree. It is
sound if besides no field dangles and every old object that references a young one
lies in a dirty card. A new heap is sound.
-/

set_option autoImplicit false

namespace Tenure

/-- A card table covers exactly the addresses of an arena. -/
structure CardTable.Spans (table : CardTable) (arena : Arena) : Prop where
  wellFormed : table.WellFormed
  base : table.base = arena.base
  extent : table.extent = arena.capacity

theorem CardTable.SameCards.spans {table after : CardTable} {arena : Arena}
    (same : table.SameCards after) (spans : table.Spans arena) : after.Spans arena where
  wellFormed := same.wellFormed spans.wellFormed
  base := same.base.trans spans.base
  extent := same.extent.trans spans.extent

/-- Every field of a live object names a live object or none. -/
def Directory.Closed (directory : Directory) : Prop :=
  ∀ holder target, some target ∈ directory.graph holder → directory.isLive target = true

theorem Space.mem_all (space : Space) : space ∈ Space.all := by
  cases space with
  | eden => decide
  | survivor side => cases side <;> decide
  | old => decide

theorem Side.other_ne (side : Side) : side.other ≠ side := by
  cases side <;> simp [Side.other]

@[simp] theorem Side.other_other (side : Side) : side.other.other = side := by
  cases side <;> rfl

theorem Side.eq_or_eq_other (side other : Side) : side = other ∨ side = other.other := by
  cases side <;> cases other <;> simp [Side.other]

namespace Heap

variable {Source : Type}

/-! ## Replacing an arena -/

theorem arena_congr {heap after : Heap Source} (eden : after.eden = heap.eden)
    (survivorA : after.survivorA = heap.survivorA)
    (survivorB : after.survivorB = heap.survivorB) (old : after.old = heap.old)
    (space : Space) : after.arena space = heap.arena space := by
  cases space with
  | eden => exact eden
  | survivor side =>
      cases side with
      | a => exact survivorA
      | b => exact survivorB
  | old => exact old

theorem arena_setArena (heap : Heap Source) (space other : Space) (arena : Arena) :
    (heap.setArena space arena).arena other = if other = space then arena else heap.arena other := by
  rcases space with _ | (_ | _) | _ <;> rcases other with _ | (_ | _) | _ <;> rfl

/-- Everything but the arenas stays as it is. -/
private theorem setArena_frame (heap : Heap Source) (space : Space) (arena : Arena) :
    ∃ eden survivorA survivorB old,
      heap.setArena space arena = { heap with eden, survivorA, survivorB, old } := by
  cases space with
  | eden => exact ⟨_, _, _, _, rfl⟩
  | survivor side => cases side <;> exact ⟨_, _, _, _, rfl⟩
  | old => exact ⟨_, _, _, _, rfl⟩

section Frame

variable (heap : Heap Source) (space : Space) (arena : Arena)

@[simp] theorem directory_setArena : (heap.setArena space arena).directory = heap.directory := by
  obtain ⟨_, _, _, _, same⟩ := heap.setArena_frame space arena
  rw [same]

@[simp] theorem cards_setArena : (heap.setArena space arena).cards = heap.cards := by
  obtain ⟨_, _, _, _, same⟩ := heap.setArena_frame space arena
  rw [same]

@[simp] theorem settings_setArena : (heap.setArena space arena).settings = heap.settings := by
  obtain ⟨_, _, _, _, same⟩ := heap.setArena_frame space arena
  rw [same]

@[simp] theorem memory_setArena : (heap.setArena space arena).memory = heap.memory := by
  obtain ⟨_, _, _, _, same⟩ := heap.setArena_frame space arena
  rw [same]

@[simp] theorem threshold_setArena : (heap.setArena space arena).threshold = heap.threshold := by
  obtain ⟨_, _, _, _, same⟩ := heap.setArena_frame space arena
  rw [same]

@[simp] theorem holding_setArena : (heap.setArena space arena).holding = heap.holding := by
  obtain ⟨_, _, _, _, same⟩ := heap.setArena_frame space arena
  rw [same]

end Frame

theorem pushTo_eq_setArena (heap : Heap Source) (space : Space) (handle : Handle) (size : Nat) :
    heap.pushTo space handle size =
      heap.setArena space ((heap.arena space).push handle size) := by
  cases space with
  | eden => rfl
  | survivor side => cases side <;> rfl
  | old => rfl

/-! ## Invariants -/

/-- Directory, arenas and card table agree. -/
structure Consistent (heap : Heap Source) : Prop where
  directory : heap.directory.WellFormed
  fills : ∀ space, heap.directory.Fills space (heap.arena space)
  generation : ∀ handle record, heap.directory.get? handle = some record →
    record.generation = record.space.generation
  cards : heap.cards.Spans heap.old

/-- Old objects that reference young ones lie in dirty cards. -/
def Remembered (heap : Heap Source) : Prop :=
  ∀ holder record, heap.directory.get? holder = some record → record.generation = .old →
    heap.directory.referencesYoung holder = true → heap.cards.Remembers record.address

/-- What holds of every heap between two operations. -/
structure Sound (heap : Heap Source) : Prop where
  consistent : heap.Consistent
  closed : heap.directory.Closed
  remembered : heap.Remembered

/-! ## Consequences of agreement -/

theorem generation_eq_old_iff {space : Space} : space.generation = .old ↔ space = .old := by
  cases space <;> simp [Space.generation]

theorem Consistent.old_iff {heap : Heap Source} (consistent : heap.Consistent) {handle : Handle}
    {record : Record} (found : heap.directory.get? handle = some record) :
    record.generation = .old ↔ record.space = .old := by
  rw [consistent.generation handle record found, generation_eq_old_iff]

theorem Consistent.isYoung_iff {heap : Heap Source} (consistent : heap.Consistent)
    {handle : Handle} : heap.directory.isYoung handle = true ↔
      ∃ record, heap.directory.get? handle = some record ∧ record.space ≠ .old := by
  rw [Directory.isYoung_iff]
  constructor
  · intro young
    obtain ⟨record, found, young⟩ := young
    exact ⟨record, found, fun old => young ((consistent.old_iff found).mpr old)⟩
  · intro young
    obtain ⟨record, found, young⟩ := young
    exact ⟨record, found, fun old => young ((consistent.old_iff found).mp old)⟩

theorem Consistent.covers {heap : Heap Source} (consistent : heap.Consistent) {handle : Handle}
    {record : Record} (found : heap.directory.get? handle = some record)
    (old : record.space = .old) : heap.cards.Covers record.address := by
  have fills : heap.directory.Fills .old heap.old := consistent.fills .old
  obtain ⟨resident, member, _, _, address⟩ := fills.exists_resident found old
  have inside := fills.wellFormed.offset_lt_capacity member
  unfold CardTable.Covers
  rw [consistent.cards.base, consistent.cards.extent, address]
  omega

theorem Consistent.wholeGranules {heap : Heap Source} (consistent : heap.Consistent)
    {handle : Handle} {record : Record} (found : heap.directory.get? handle = some record) :
    WholeGranules record.size := by
  have fills := consistent.fills record.space
  obtain ⟨resident, member, _, size, _⟩ := fills.exists_resident found rfl
  rw [size]
  exact fills.wellFormed.whole resident member

/-- Live objects are residents. -/
theorem Consistent.mem_residents {heap : Heap Source} (consistent : heap.Consistent)
    {handle : Handle} :
    handle ∈ heap.residents ↔ heap.directory.isLive handle = true := by
  rw [residents, List.mem_flatMap, Directory.isLive_iff]
  constructor
  · intro resides
    obtain ⟨space, _, member⟩ := resides
    obtain ⟨record, found, _⟩ := (consistent.fills space).mem_handles_iff.mp member
    exact ⟨record, found⟩
  · intro live
    obtain ⟨record, found⟩ := live
    exact ⟨record.space, record.space.mem_all,
      (consistent.fills record.space).complete handle record found rfl⟩

theorem Consistent.mem_old_handles {heap : Heap Source} (consistent : heap.Consistent)
    {handle : Handle} :
    handle ∈ heap.old.handles ↔ heap.directory.generation? handle = some .old := by
  rw [Directory.generation?_eq_some_iff]
  refine (consistent.fills .old).mem_handles_iff.trans (exists_congr fun record => ?_)
  exact and_congr_right fun found => (consistent.old_iff found).symm

theorem Consistent.nodup_residents {heap : Heap Source} (consistent : heap.Consistent) :
    heap.residents.Nodup := by
  have apart : ∀ space other handle, space ≠ other → handle ∈ (heap.arena space).handles →
      handle ∉ (heap.arena other).handles := by
    intro space other handle different member otherMember
    obtain ⟨record, found, here⟩ := (consistent.fills space).mem_handles_iff.mp member
    obtain ⟨same, sameFound, there⟩ := (consistent.fills other).mem_handles_iff.mp otherMember
    rw [found, Option.some.injEq] at sameFound
    subst sameFound
    exact different (here.symm.trans there)
  unfold residents List.Nodup
  rw [List.pairwise_flatMap]
  refine ⟨fun space _ => (consistent.fills space).distinct, ?_⟩
  have spaces : Space.all.Nodup := by decide
  refine spaces.imp fun different handle member other otherMember same => ?_
  exact apart _ _ handle different member (same ▸ otherMember)

theorem Consistent.length_residents {heap : Heap Source} (consistent : heap.Consistent) :
    heap.residents.length = heap.directory.live := by
  rw [← consistent.directory.length_handles]
  refine List.Perm.length_eq ((List.perm_ext_iff_of_nodup consistent.nodup_residents
    consistent.directory.nodup_handles).mpr fun handle => ?_)
  rw [consistent.mem_residents, consistent.directory.mem_handles]

/-! ## New heaps -/

theorem refusable_of_eq_ok {Value : Type} {answer : Answer Value} {value : Value}
    (ran : (Refusable.of answer).run = .ok (.ok value)) : answer = .ok value := by
  cases ran
  rfl

theorem reserveArena_eq_ok [MemorySource Source] {memory rest : Source} {space : Space}
    {capacity : Nat} {arena : Arena}
    (ran : (reserveArena memory space capacity).run = .ok (.ok (arena, rest))) :
    ∃ base, MemorySource.reserve memory space capacity = .ok (.ok base, rest) ∧
      arena = Arena.empty space base capacity := by
  unfold reserveArena at ran
  obtain ⟨⟨answer, left⟩, reserved, ran⟩ := Checked.run_bind_eq_ok ran
  obtain ⟨base, granted, ran⟩ := Checked.run_bind_eq_ok ran
  simp only [ExceptT.run_pure, Checked.pure_eq_ok_iff, Except.ok.injEq, Prod.mk.injEq] at ran
  obtain ⟨rfl, rfl⟩ := ran
  have answered := Checked.run_lift_eq_ok reserved
  rw [refusable_of_eq_ok granted] at answered
  exact ⟨base, answered, rfl⟩

/-- The spaces of a new heap are reserved one after another. -/
structure Creation [MemorySource Source] (settings : Settings) (memory : Source)
    (heap : Heap Source) (afterEden afterA afterB : Source) : Prop where
  valid : settings.validate = .ok ()
  eden : (reserveArena memory .eden settings.edenSize.toNat).run =
    .ok (.ok (heap.eden, afterEden))
  survivorA : (reserveArena afterEden (.survivor .a) settings.survivorSize.toNat).run =
    .ok (.ok (heap.survivorA, afterA))
  survivorB : (reserveArena afterA (.survivor .b) settings.survivorSize.toNat).run =
    .ok (.ok (heap.survivorB, afterB))
  old : (reserveArena afterB .old settings.oldSize.toNat).run =
    .ok (.ok (heap.old, heap.memory))
  cards : CardTable.create heap.old.base heap.old.capacity settings.cardSize.toNat =
    .ok heap.cards
  settings_eq : heap.settings = settings
  directory_eq : heap.directory = .empty

theorem creation_of_create [MemorySource Source] {settings : Settings} {memory : Source}
    {heap : Heap Source} (ran : (create settings memory).run = .ok (.ok heap)) :
    ∃ afterEden afterA afterB, Creation settings memory heap afterEden afterA afterB := by
  unfold create at ran
  obtain ⟨_, validated, ran⟩ := Checked.run_bind_eq_ok ran
  obtain ⟨⟨_, afterEden⟩, eden, ran⟩ := Checked.run_bind_eq_ok ran
  obtain ⟨⟨_, afterA⟩, survivorA, ran⟩ := Checked.run_bind_eq_ok ran
  obtain ⟨⟨_, afterB⟩, survivorB, ran⟩ := Checked.run_bind_eq_ok ran
  obtain ⟨⟨_, afterOld⟩, old, ran⟩ := Checked.run_bind_eq_ok ran
  obtain ⟨_, cards, ran⟩ := Checked.run_bind_eq_ok ran
  simp only [ExceptT.run_pure, Checked.pure_eq_ok_iff, Except.ok.injEq] at ran
  subst ran
  exact ⟨afterEden, afterA, afterB, refusable_of_eq_ok validated, eden, survivorA, survivorB, old,
    Checked.run_lift_eq_ok cards, rfl, rfl⟩

/-- The capacity that a space begins with. -/
def capacityOf (settings : Settings) : Space → Nat
  | .eden => settings.edenSize.toNat
  | .survivor _ => settings.survivorSize.toNat
  | .old => settings.oldSize.toNat

/-- A new heap has valid settings and no objects. -/
theorem create_eq_ok [MemorySource Source] {settings : Settings} {memory : Source}
    {heap : Heap Source} (ran : (create settings memory).run = .ok (.ok heap)) :
    heap.settings = settings ∧ heap.directory = .empty ∧
      (∀ space, ∃ base, heap.arena space = Arena.empty space base (capacityOf settings space)) ∧
      heap.cards.Spans heap.old := by
  obtain ⟨_, _, _, creation⟩ := creation_of_create ran
  obtain ⟨edenBase, _, eden⟩ := reserveArena_eq_ok creation.eden
  obtain ⟨baseA, _, survivorA⟩ := reserveArena_eq_ok creation.survivorA
  obtain ⟨baseB, _, survivorB⟩ := reserveArena_eq_ok creation.survivorB
  obtain ⟨oldBase, _, old⟩ := reserveArena_eq_ok creation.old
  obtain ⟨wellFormed, base, extent, _⟩ := CardTable.create_eq_ok creation.cards
  refine ⟨creation.settings_eq, creation.directory_eq, fun space => ?_,
    ⟨wellFormed, base, extent⟩⟩
  cases space with
  | eden => exact ⟨edenBase, eden⟩
  | survivor side =>
      cases side with
      | a => exact ⟨baseA, survivorA⟩
      | b => exact ⟨baseB, survivorB⟩
  | old => exact ⟨oldBase, old⟩

theorem sound_of_create [MemorySource Source] {settings : Settings} {memory : Source}
    {heap : Heap Source} (ran : (create settings memory).run = .ok (.ok heap)) : heap.Sound := by
  obtain ⟨_, directory, arenas, cards⟩ := create_eq_ok ran
  refine ⟨⟨?_, fun space => ?_, fun handle record found => ?_, cards⟩,
    fun holder target field => ?_, fun holder record found => ?_⟩
  · rw [directory]
    exact Directory.wellFormed_empty
  · obtain ⟨base, arena⟩ := arenas space
    rw [directory, arena]
    exact Directory.fills_empty space base _
  · simp [directory] at found
  · obtain ⟨record, found, _⟩ := Directory.mem_graph_iff.mp field
    simp [directory] at found
  · simp [directory] at found

end Heap

end Tenure
