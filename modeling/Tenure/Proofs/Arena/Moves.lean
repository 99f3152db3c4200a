import Tenure.Proofs.Arena.Attainable

/-!
# Slides move objects without loss

A slide packs the residents that stay from the base on and reports those that moved, in
address order. Every one of them moves down to an address where nothing is left of the ones
after it, so the bytes of all objects arrive when they are moved one by one in that order.
-/

set_option autoImplicit false

namespace Tenure

/-- The memory after the bytes of an object were moved; they are read before any of them is
overwritten. -/
def moveBytes {Byte : Type} (memory : Nat → Byte) (source target size : Nat) : Nat → Byte :=
  fun address =>
    if target ≤ address ∧ address < target + size then memory (source + (address - target))
    else memory address

section MoveBytes

variable {Byte : Type} (memory : Nat → Byte) {source target size address : Nat}

theorem moveBytes_inside {index : Nat} (inside : index < size) :
    moveBytes memory source target size (target + index) = memory (source + index) := by
  have within : target ≤ target + index ∧ target + index < target + size := by omega
  rw [moveBytes, if_pos within, Nat.add_sub_cancel_left]

theorem moveBytes_outside (outside : address < target ∨ target + size ≤ address) :
    moveBytes memory source target size address = memory address := by
  have beyond : ¬ (target ≤ address ∧ address < target + size) := by omega
  rw [moveBytes, if_neg beyond]

theorem moveBytes_self (source size : Nat) : moveBytes memory source source size = memory := by
  funext address
  by_cases inside : source ≤ address ∧ address < source + size
  · rw [moveBytes, if_pos inside, Nat.add_sub_cancel' inside.1]
  · rw [moveBytes, if_neg inside]

end MoveBytes

namespace Arena

/-- The residents that a slide has to keep. -/
def kept (arena : Arena) (keep : Handle → Bool) : List Resident :=
  arena.residents.toList.filter fun resident => keep resident.handle

/-- The residents that a slide keeps, each with its place before and after. -/
def places (arena : Arena) (keep : Handle → Bool) (after : Arena) : List (Resident × Resident) :=
  (arena.kept keep).zip after.residents.toList

/-- The residents that a slide moves. -/
def displaced (arena : Arena) (keep : Handle → Bool) (after : Arena) :
    List (Resident × Resident) :=
  (arena.places keep after).filter fun place => place.1.offset ≠ place.2.offset

/-- The memory after the residents that a slide moves were moved in their order. -/
def moveAll {Byte : Type} (arena : Arena) (memory : Nat → Byte)
    (moves : List (Resident × Resident)) : Nat → Byte :=
  moves.foldl (fun memory place => moveBytes memory (arena.base + place.1.offset)
    (arena.base + place.2.offset) place.1.size) memory

/-- What a slide does to the residents and to the memory under them. -/
structure SlidesTo (arena : Arena) (keep : Handle → Bool) (moves : List Relocation)
    (after : Arena) : Prop where
  sameRange : after.space = arena.space ∧ after.base = arena.base ∧
    after.capacity = arena.capacity
  sameObjects : after.residents.toList.map (fun resident => (resident.handle, resident.size)) =
    (arena.kept keep).map fun resident => (resident.handle, resident.size)
  packed : Packed 0 after.residents.toList
  used_eq : after.used = ((arena.kept keep).map Resident.size).sum
  moves_eq : moves = (arena.displaced keep after).map fun place =>
    { handle := place.1.handle
      source := arena.base + place.1.offset
      target := arena.base + place.2.offset }
  downward : ∀ move ∈ moves, move.target < move.source
  ordered : moves.Pairwise fun earlier later => earlier.source < later.source
  /-- A resident ends, at its new place, below the old place of any resident after it. -/
  clear : (arena.places keep after).Pairwise fun earlier later =>
    arena.base + earlier.2.offset + earlier.2.size ≤ arena.base + later.1.offset
  arrives : ∀ {Byte : Type} (memory : Nat → Byte), ∀ place ∈ arena.places keep after,
    ∀ index < place.1.size,
      arena.moveAll memory (arena.displaced keep after) (arena.base + place.2.offset + index) =
        memory (arena.base + place.1.offset + index)
  settled : after.slide keep = .ok ([], after)

variable {arena : Arena} {keep : Handle → Bool}

/-! ## Places -/

theorem places_slid (arena : Arena) (keep : Handle → Bool) :
    arena.places keep (arena.slid keep) =
      (arena.shifts keep).map fun shift => (shift.1, replaced shift) := by
  have stays : arena.kept keep = (arena.shifts keep).map Prod.fst := (map_fst_shifted 0 _).symm
  rw [places, toList_slid, stays, List.zip_map']

theorem displaced_slid (arena : Arena) (keep : Handle → Bool) :
    arena.displaced keep (arena.slid keep) =
      ((arena.shifts keep).filter fun shift => shift.2 ≠ shift.1.offset).map
        fun shift => (shift.1, replaced shift) := by
  rw [displaced, places_slid, List.filter_map]
  refine congrArg _ (List.filter_congr fun shift _ => ?_)
  simp only [Function.comp_apply, replaced_offset, ne_comm]

theorem WellFormed.ordered_shifts (wellFormed : arena.WellFormed) (keep : Handle → Bool) :
    (arena.shifts keep).Pairwise fun earlier later => earlier.1.finish ≤ later.1.offset := by
  have ordered := wellFormed.packed.pairwise.sublist
    (List.filter_sublist (p := fun resident => keep resident.handle))
  rw [← map_fst_shifted 0 (arena.residents.toList.filter _), List.pairwise_map] at ordered
  exact ordered

/-! ## Memory -/

/-- Objects that are moved together from an offset on arrive, and nothing below changes. -/
private theorem arrives_shifted {Byte : Type} (base : Nat) {start : Nat}
    {residents : List Resident}
    (ordered : residents.Pairwise fun earlier later => earlier.finish ≤ later.offset)
    (above : ∀ resident ∈ residents, start ≤ resident.offset) (memory : Nat → Byte) :
    let final := (shifted start residents).foldl (fun memory shift =>
      moveBytes memory (base + shift.1.offset) (base + shift.2) shift.1.size) memory
    (∀ address, address < base + start → final address = memory address) ∧
      ∀ shift ∈ shifted start residents, ∀ index < shift.1.size,
        final (base + shift.2 + index) = memory (base + shift.1.offset + index) := by
  induction residents generalizing start memory with
  | nil => simp [shifted]
  | cons resident rest ih =>
      obtain ⟨later, ordered⟩ := List.pairwise_cons.mp ordered
      have lower := above resident List.mem_cons_self
      have beyond : ∀ other ∈ rest, start + resident.size ≤ other.offset := by
        intro other member
        have separate := later other member
        simp only [Resident.finish] at separate
        omega
      -- The rest is moved in the memory in which the first object has arrived.
      obtain ⟨below, arrives⟩ := ih ordered beyond
        (moveBytes memory (base + resident.offset) (base + start) resident.size)
      simp only [shifted, List.foldl_cons]
      refine ⟨fun address under => ?_, fun shift member index inside => ?_⟩
      · rw [below address (by omega), moveBytes_outside memory (.inl under)]
      · rcases List.mem_cons.mp member with rfl | member
        · rw [below _ (by dsimp only at inside ⊢; omega)]
          exact moveBytes_inside memory inside
        · have high := beyond shift.1 (mem_of_mem_shifted member)
          rw [arrives shift member index inside, moveBytes_outside memory (.inr (by omega))]

/-- Objects that stay where they are need not be moved. -/
theorem moveAll_displaced {Byte : Type} (arena : Arena) (keep : Handle → Bool)
    (memory : Nat → Byte) :
    arena.moveAll memory (arena.displaced keep (arena.slid keep)) =
      (arena.shifts keep).foldl (fun memory shift =>
        moveBytes memory (arena.base + shift.1.offset) (arena.base + shift.2) shift.1.size)
        memory := by
  rw [displaced_slid, moveAll, List.foldl_map, List.foldl_filter]
  refine congrArg (fun step => (arena.shifts keep).foldl step memory) ?_
  funext memory shift
  by_cases still : shift.2 = shift.1.offset
  · simp [still, moveBytes_self]
  · simp [still]

/-! ## Sliding once more -/

theorem shifted_of_packed {start : Nat} {residents : List Resident}
    (packed : Packed start residents) :
    shifted start residents = residents.map fun resident => (resident, resident.offset) := by
  induction residents generalizing start with
  | nil => rfl
  | cons resident rest ih =>
      obtain ⟨rfl, packed⟩ := packed
      exact congrArg (List.cons (resident, resident.offset)) (ih packed)

theorem kept_slid (arena : Arena) (keep : Handle → Bool) :
    (arena.slid keep).kept keep = (arena.slid keep).residents.toList := by
  rw [kept, List.filter_eq_self, toList_slid]
  intro resident member
  obtain ⟨shift, selected, rfl⟩ := List.mem_map.mp member
  exact (mem_of_mem_shifts selected).2

theorem WellFormed.shifts_slid (wellFormed : arena.WellFormed) (keep : Handle → Bool) :
    (arena.slid keep).shifts keep =
      (arena.slid keep).residents.toList.map fun resident => (resident, resident.offset) := by
  rw [shifts, show (arena.slid keep).residents.toList.filter _ = _ from kept_slid arena keep]
  exact shifted_of_packed (wellFormed.slid keep).packed

theorem WellFormed.slid_slid (wellFormed : arena.WellFormed) (keep : Handle → Bool) :
    (arena.slid keep).slid keep = arena.slid keep := by
  have residents : ((arena.slid keep).shifts keep).map replaced =
      (arena.slid keep).residents.toList := by
    rw [wellFormed.shifts_slid, List.map_map]
    exact List.map_id _
  have used := (wellFormed.slid keep).used_eq
  rw [Arena.slid, residents, show (arena.slid keep).residents.toList.filter _ = _ from
    kept_slid arena keep, ← used]

theorem Sound.settled (sound : arena.Sound) (keep : Handle → Bool) :
    (arena.slid keep).slide keep = .ok ([], arena.slid keep) := by
  have still : relocations arena.base ((arena.slid keep).shifts keep) = [] := by
    rw [relocations, List.map_eq_nil_iff, List.filter_eq_nil_iff, sound.wellFormed.shifts_slid]
    intro shift member
    obtain ⟨resident, _, rfl⟩ := List.mem_map.mp member
    simp
  rw [(sound.slid keep).slide_eq keep, base_slid, still, sound.wellFormed.slid_slid]

/-! ## Slides of attainable arenas -/

theorem Sound.slidesTo (sound : arena.Sound) (keep : Handle → Bool) :
    arena.SlidesTo keep (relocations arena.base (arena.shifts keep)) (arena.slid keep) := by
  have wellFormed := sound.wellFormed
  have ordered := wellFormed.ordered_shifts keep
  have lower : ∀ shift ∈ arena.shifts keep, shift.2 ≤ shift.1.offset :=
    fun shift member => wellFormed.shift_le member
  refine
    { sameRange := ⟨rfl, rfl, rfl⟩
      sameObjects := ?_
      packed := (wellFormed.slid keep).packed
      used_eq := extentOf_eq_sum _
      moves_eq := ?_
      downward := fun move member => ?_
      ordered := ?_
      clear := ?_
      arrives := fun memory place member index inside => ?_
      settled := sound.settled keep }
  · rw [toList_slid, List.map_map, kept, ← map_fst_shifted 0 (arena.residents.toList.filter _),
      List.map_map]
    rfl
  · rw [displaced_slid, List.map_map]
    rfl
  · obtain ⟨shift, selected, rfl⟩ := List.mem_map.mp member
    obtain ⟨selected, moved⟩ := List.mem_filter.mp selected
    have below := lower shift selected
    simp only [ne_eq, decide_not, Bool.not_eq_true', decide_eq_false_iff_not] at moved
    simp only [relocationOf]
    omega
  · rw [relocations, List.pairwise_map]
    refine (List.Pairwise.imp_of_mem ?_ ordered).sublist List.filter_sublist
    intro earlier later member _ separate
    have positive := (wellFormed.whole earlier.1 (mem_of_mem_shifts member).1).1
    simp only [Resident.finish] at separate
    simp only [relocationOf]
    omega
  · rw [places_slid, List.pairwise_map]
    refine List.Pairwise.imp_of_mem ?_ ordered
    intro earlier later member _ separate
    have below := lower earlier member
    simp only [Resident.finish] at separate
    simp only [replaced_offset, replaced_size]
    omega
  · rw [places_slid] at member
    obtain ⟨shift, selected, rfl⟩ := List.mem_map.mp member
    have separate := wellFormed.packed.pairwise.sublist
      (List.filter_sublist (p := fun resident => keep resident.handle))
    rw [moveAll_displaced]
    exact (arrives_shifted arena.base separate (fun _ _ => Nat.zero_le _) memory).2 shift
      selected index inside

/-- Whatever operations came before, a slide moves together what it keeps and loses nothing. -/
theorem slide_moves_safely (attainable : arena.Attainable) (keep : Handle → Bool) :
    ∃ moves after, arena.slide keep = .ok (moves, after) ∧ arena.SlidesTo keep moves after :=
  ⟨_, _, attainable.sound.slide_eq keep, attainable.sound.slidesTo keep⟩

/-- The object that stays moves by less than its size. -/
theorem slide_moves_safely_onto_itself :
    ∃ (arena : Arena) (moves : List Relocation) (after : Arena), arena.Attainable ∧
      arena.slide (fun handle => handle = .ofSlot 1) = .ok (moves, after) ∧
      moves = [{ handle := .ofSlot 1, source := 4120, target := 4096 }] ∧
      after.used = 40 ∧ arena.SlidesTo (fun handle => handle = .ofSlot 1) moves after := by
  obtain ⟨arena, attainable, slides⟩ := attainable_of_leadsTo
    (show leadsTo 4096 64 slidingOperations (fun arena =>
      (arena.slide fun handle => handle = .ofSlot 1).toOption.any fun result =>
        result.1 = [{ handle := .ofSlot 1, source := 4120, target := 4096 }] &&
          result.2.used = 40) = true by decide +kernel)
  obtain ⟨moves, after, ran, slidesTo⟩ := slide_moves_safely attainable _
  rw [ran] at slides
  simp only [Except.toOption, Option.any_some, Bool.and_eq_true, decide_eq_true_eq] at slides
  exact ⟨arena, moves, after, attainable, ran, slides.1, slides.2, slidesTo⟩

end Arena

end Tenure
