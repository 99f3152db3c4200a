import Tenure.Heap.MajorCycle
import Tenure.Proofs.Directory.Epochs
import Tenure.Proofs.Heap.Sound

/-!
# Slides of the spaces of a heap

Both cycles end with slides: a minor cycle slides eden and the space the survivors came
from, a major cycle slides every space. The spaces are slid one after another, and each
slide settles its own space without disturbing the others.
-/

set_option autoImplicit false

namespace Tenure.Heap

variable {Source : Type}

def slidIn (heap : Heap Source) (space : Space) (keep : Handle → Bool) : Heap Source :=
  { heap with
    directory := heap.directory.follow (Directory.slideMoves (heap.arena space) keep)
  }.setArena space ((heap.arena space).slid keep)

variable {heap : Heap Source} {space other : Space} {keep : Handle → Bool}

theorem directory_slidIn : (heap.slidIn space keep).directory =
    heap.directory.follow (Directory.slideMoves (heap.arena space) keep) := by
  rw [slidIn, directory_setArena]

theorem arena_slidIn : (heap.slidIn space keep).arena other =
    if other = space then (heap.arena space).slid keep else heap.arena other := by
  rw [slidIn, arena_setArena]
  rfl

@[simp] theorem cards_slidIn : (heap.slidIn space keep).cards = heap.cards := by
  rw [slidIn, cards_setArena]

@[simp] theorem holding_slidIn : (heap.slidIn space keep).holding = heap.holding := by
  rw [slidIn, holding_setArena]

/-- The residents that a heap keeps in a space are recorded there. -/
def Settles (heap : Heap Source) (keep : Handle → Bool) (space : Space) : Prop :=
  heap.directory.Stays space (heap.arena space) keep

/-- The residents of a space and the records for it agree. -/
def Settled (heap : Heap Source) (space : Space) : Prop :=
  heap.directory.Fills space (heap.arena space)

theorem Settles.settled (settles : heap.Settles keep space) :
    (heap.slidIn space keep).Settled space := by
  rw [Settled, directory_slidIn, arena_slidIn, if_pos rfl]
  exact Directory.Stays.fills_slid settles

theorem Settles.settled_elsewhere (settles : heap.Settles keep space) (different : other ≠ space)
    (settled : heap.Settled other) : (heap.slidIn space keep).Settled other := by
  rw [Settled, directory_slidIn, arena_slidIn, if_neg different]
  exact Directory.Stays.fills_elsewhere settles different settled

theorem Settles.settles_elsewhere (settles : heap.Settles keep space) (different : other ≠ space)
    (others : heap.Settles keep other) : (heap.slidIn space keep).Settles keep other := by
  rw [Settles, directory_slidIn, arena_slidIn, if_neg different]
  exact Directory.Stays.stays_elsewhere settles different others

def slidThrough (heap : Heap Source) (spaces : List Space) (keep : Handle → Bool) :
    Heap Source :=
  spaces.foldl (fun heap space => heap.slidIn space keep) heap

@[simp] theorem cards_slidThrough {spaces : List Space} :
    (heap.slidThrough spaces keep).cards = heap.cards := by
  unfold slidThrough
  induction spaces generalizing heap with
  | nil => rfl
  | cons space rest ih => rw [List.foldl_cons, ih, cards_slidIn]

@[simp] theorem holding_slidThrough {spaces : List Space} :
    (heap.slidThrough spaces keep).holding = heap.holding := by
  unfold slidThrough
  induction spaces generalizing heap with
  | nil => rfl
  | cons space rest ih => rw [List.foldl_cons, ih, holding_slidIn]

theorem directory_slidThrough {spaces : List Space} (wellFormed : heap.directory.WellFormed) :
    (heap.slidThrough spaces keep).directory.WellFormed := by
  unfold slidThrough
  induction spaces generalizing heap with
  | nil => exact wellFormed
  | cons space rest ih =>
      rw [List.foldl_cons]
      refine ih ?_
      rw [directory_slidIn]
      exact wellFormed.follow _

theorem occupancy_slidThrough {spaces : List Space} :
    (heap.slidThrough spaces keep).directory.occupancy = heap.directory.occupancy := by
  unfold slidThrough
  induction spaces generalizing heap with
  | nil => rfl
  | cons space rest ih =>
      rw [List.foldl_cons, ih, directory_slidIn, Directory.occupancy_follow]

/-- Slides of distinct spaces settle each of them and leave the others alone. -/
theorem settled_slidThrough {spaces : List Space} (distinct : spaces.Nodup)
    (settles : ∀ space ∈ spaces, heap.Settles keep space) :
    (∀ space ∈ spaces, (heap.slidThrough spaces keep).Settled space) ∧
      ∀ space, heap.Settled space → space ∉ spaces →
        (heap.slidThrough spaces keep).Settled space := by
  unfold slidThrough
  induction spaces generalizing heap with
  | nil => exact ⟨by simp, fun space settled _ => settled⟩
  | cons first rest ih =>
      obtain ⟨unlisted, distinct⟩ := List.nodup_cons.mp distinct
      have here := settles first List.mem_cons_self
      have later := ih distinct fun space member => here.settles_elsewhere
        (fun same => unlisted (same ▸ member)) (settles space (List.mem_cons_of_mem first member))
      rw [List.foldl_cons]
      refine ⟨fun space member => ?_, fun space settled absent => ?_⟩
      · rcases List.mem_cons.mp member with rfl | member
        · exact later.2 space here.settled unlisted
        · exact later.1 space member
      · rw [List.mem_cons, not_or] at absent
        exact later.2 space (here.settled_elsewhere absent.1 settled) absent.2

/-- What becomes of a record in slides: only its address changes, and only if its space
is one of those slid. -/
theorem get?_slidThrough {spaces : List Space} (distinct : spaces.Nodup)
    (settles : ∀ space ∈ spaces, heap.Settles keep space) {handle : Handle} {record : Record}
    (found : heap.directory.get? handle = some record) :
    ∃ address, (heap.slidThrough spaces keep).directory.get? handle =
        some { record with address } ∧
      address ≤ record.address ∧ (record.space ∉ spaces → address = record.address) := by
  unfold slidThrough
  induction spaces generalizing heap record with
  | nil => exact ⟨record.address, found, Nat.le_refl _, fun _ => rfl⟩
  | cons first rest ih =>
      obtain ⟨unlisted, distinct⟩ := List.nodup_cons.mp distinct
      have here := settles first List.mem_cons_self
      obtain ⟨next, nextFound, lower, same⟩ :=
        Directory.Stays.get?_follow_eq_some here found
      rw [← directory_slidIn] at nextFound
      obtain ⟨address, last, lowest, still⟩ := ih distinct (fun space member =>
        here.settles_elsewhere (fun same => unlisted (same ▸ member))
          (settles space (List.mem_cons_of_mem first member))) nextFound
      refine ⟨address, last, Nat.le_trans lowest lower, fun absent => ?_⟩
      rw [List.mem_cons, not_or] at absent
      exact (still absent.2).trans (same absent.1)

/-- Slides do not touch the records for the other spaces. -/
theorem get?_slidThrough_elsewhere {spaces : List Space} (distinct : spaces.Nodup)
    (settles : ∀ space ∈ spaces, heap.Settles keep space) {handle : Handle} {record : Record}
    (found : heap.directory.get? handle = some record) (elsewhere : record.space ∉ spaces) :
    (heap.slidThrough spaces keep).directory.get? handle = some record := by
  obtain ⟨address, slid, _, still⟩ := get?_slidThrough distinct settles found
  rw [slid, still elsewhere]

theorem isLive_slidThrough {spaces : List Space} (handle : Handle) :
    (heap.slidThrough spaces keep).directory.isLive handle = heap.directory.isLive handle := by
  unfold slidThrough
  induction spaces generalizing heap with
  | nil => rfl
  | cons space rest ih =>
      rw [List.foldl_cons, ih, directory_slidIn]
      have contents := heap.directory.contents_follow
        (Directory.slideMoves (heap.arena space) keep) handle
      have present := congrArg Option.isSome contents
      simpa only [Directory.isLive, Option.isSome_map] using present

theorem arena_slidThrough {spaces : List Space} (distinct : spaces.Nodup) :
    (heap.slidThrough spaces keep).arena other =
      if other ∈ spaces then (heap.arena other).slid keep else heap.arena other := by
  unfold slidThrough
  induction spaces generalizing heap with
  | nil => simp
  | cons space rest ih =>
      obtain ⟨unlisted, distinct⟩ := List.nodup_cons.mp distinct
      rw [List.foldl_cons, ih distinct, arena_slidIn]
      by_cases same : other = space
      · subst same
        simp [unlisted]
      · simp [same]

/-- The moves of one of the slides are those of the objects in its space whose address
changes. -/
theorem mem_slideMoves_iff {spaces : List Space} (distinct : spaces.Nodup)
    (settles : ∀ space ∈ spaces, heap.Settles keep space) (slid : space ∈ spaces)
    {move : Relocation} :
    move ∈ Directory.slideMoves (heap.arena space) keep ↔ ∃ record address,
      heap.directory.get? move.handle = some record ∧ record.space = space ∧
        (heap.slidThrough spaces keep).directory.get? move.handle =
          some { record with address } ∧
        move.source = record.address ∧ move.target = address ∧ address ≠ record.address := by
  induction spaces generalizing heap with
  | nil => simp at slid
  | cons first rest ih =>
      obtain ⟨unlisted, apart⟩ := List.nodup_cons.mp distinct
      have here := settles first List.mem_cons_self
      have later : ∀ other ∈ rest, (heap.slidIn first keep).Settles keep other :=
        fun other member => here.settles_elsewhere (fun same => unlisted (same ▸ member))
          (settles other (List.mem_cons_of_mem first member))
      have unfolded : heap.slidThrough (first :: rest) keep =
          (heap.slidIn first keep).slidThrough rest keep := rfl
      rw [unfolded]
      by_cases same : space = first
      · subst same
        rw [Directory.Stays.mem_slideMoves_iff here, ← directory_slidIn]
        constructor
        · intro slides
          obtain ⟨record, address, found, inside, moved, source, target, differs⟩ := slides
          have last := get?_slidThrough_elsewhere apart later moved (inside ▸ unlisted)
          exact ⟨record, address, found, inside, last, source, target, differs⟩
        · intro slides
          obtain ⟨record, address, found, inside, moved, source, target, differs⟩ := slides
          obtain ⟨next, nextFound, _⟩ := Directory.Stays.get?_follow_eq_some here found
          rw [← directory_slidIn] at nextFound
          have equal := get?_slidThrough_elsewhere apart later nextFound (inside ▸ unlisted)
          rw [moved] at equal
          exact ⟨record, address, found, inside, equal ▸ nextFound, source, target, differs⟩
      · have inRest : space ∈ rest := (List.mem_cons.mp slid).resolve_left same
        have arena : (heap.slidIn first keep).arena space = heap.arena space := by
          rw [arena_slidIn, if_neg same]
        have records : ∀ record, record.space = space →
            ((heap.slidIn first keep).directory.get? move.handle = some record ↔
              heap.directory.get? move.handle = some record) := by
          intro record inside
          rw [directory_slidIn]
          exact Directory.Stays.get?_follow_iff here (inside ▸ same)
        rw [← arena, ih apart later inRest]
        constructor
        · intro slides
          obtain ⟨record, address, found, inside, rest⟩ := slides
          exact ⟨record, address, (records record inside).mp found, inside, rest⟩
        · intro slides
          obtain ⟨record, address, found, inside, rest⟩ := slides
          exact ⟨record, address, (records record inside).mpr found, inside, rest⟩

/-! ## The slides of the cycles -/

/-- A minor cycle slides the two spaces that the survivors left. If the survivor space
is empty then, the survivor spaces change their roles. -/
theorem vacate_eq_ok {after : Heap Source} {retained : HandleSet}
    (ran : heap.vacate retained = .ok after) :
    after = { heap.slidThrough [.eden, .survivor heap.holding] retained.contains with
      holding :=
        if ((heap.survivor heap.holding).slid retained.contains).residents.isEmpty then
          heap.holding.other
        else heap.holding } := by
  unfold vacate at ran
  simp only [Checked.bind_eq_ok_iff] at ran
  obtain ⟨⟨edenMoves, eden⟩, edenSlid, ⟨sourceMoves, emptied⟩, sourceSlid, ran⟩ := ran
  obtain ⟨rfl, rfl⟩ := Arena.slide_eq_ok edenSlid
  obtain ⟨rfl, rfl⟩ := Arena.slide_eq_ok sourceSlid
  have shape : ∀ side,
      { heap with
        directory :=
          (heap.directory.follow
            (Directory.slideMoves heap.eden retained.contains)).follow
              (Directory.slideMoves (heap.survivor side) retained.contains)
        eden := heap.eden.slid retained.contains
      }.setArena (.survivor side) ((heap.survivor side).slid retained.contains) =
        heap.slidThrough [.eden, .survivor side] retained.contains := by
    intro side
    cases side <;> rfl
  split at ran
  · rename_i empty
    simp only at empty
    rw [Checked.pure_eq_ok_iff] at ran
    rw [← ran, ← shape, if_pos empty]
    rfl
  · rename_i occupied
    simp only at occupied
    rw [Checked.pure_eq_ok_iff] at ran
    rw [← ran, ← shape, if_neg occupied]
    cases heap.holding <;> rfl

/-- A major cycle slides every space and answers the moves in the old one. -/
theorem compact_eq_ok {after : Heap Source} {moves : List Relocation}
    (ran : heap.compact = .ok (moves, after)) :
    moves = Directory.slideMoves heap.old heap.directory.isLive ∧
      after = heap.slidThrough Space.all heap.directory.isLive := by
  unfold compact at ran
  simp only [Checked.bind_eq_ok_iff, Checked.pure_eq_ok_iff, Prod.mk.injEq] at ran
  obtain ⟨⟨edenMoves, eden⟩, edenSlid, ⟨movesA, survivorA⟩, slidA, ⟨movesB, survivorB⟩, slidB,
    ⟨oldMoves, old⟩, oldSlid, rfl, rfl⟩ := ran
  obtain ⟨rfl, rfl⟩ := Arena.slide_eq_ok edenSlid
  obtain ⟨rfl, rfl⟩ := Arena.slide_eq_ok slidA
  obtain ⟨rfl, rfl⟩ := Arena.slide_eq_ok slidB
  obtain ⟨rfl, rfl⟩ := Arena.slide_eq_ok oldSlid
  exact ⟨rfl, rfl⟩

end Tenure.Heap
