import Tenure.Proofs.Arena.Compaction
import Tenure.Proofs.Directory.Slots

/-!
# Records and residents

The directory and the arenas both know where an object lies. They agree if every
resident of an arena is recorded at its place, and every record for the space of the
arena has a resident. This is kept where an object is placed or moved, and a slide
restores it for the residents that stay.
-/

set_option autoImplicit false

namespace Tenure

/-- What a record says about the object itself. -/
def Record.contents (record : Record) : Nat × List (Option Handle) :=
  (record.size, record.fields)

/-- What a record says about the place of its object. -/
def Record.place (record : Record) : Space × Nat × Nat :=
  (record.space, record.address, record.size)

namespace Directory

def Locates (directory : Directory) (space : Space) (base : Nat) (resident : Resident) : Prop :=
  ∃ record, directory.get? resident.handle = some record ∧
    record.place = (space, base + resident.offset, resident.size)

/-- The residents of an arena are the objects recorded in its space. -/
structure Fills (directory : Directory) (space : Space) (arena : Arena) : Prop where
  wellFormed : arena.WellFormed
  distinct : arena.handles.Nodup
  located : ∀ resident ∈ arena.residents.toList, directory.Locates space arena.base resident
  complete : ∀ handle record, directory.get? handle = some record → record.space = space →
    handle ∈ arena.handles

variable {directory after : Directory} {space : Space} {arena : Arena}

theorem fills_empty (space : Space) (base capacity : Nat) :
    empty.Fills space (Arena.empty space base capacity) where
  wellFormed := Arena.wellFormed_empty space base capacity
  distinct := List.nodup_nil
  located := by simp [Arena.empty]
  complete := by simp

theorem Fills.exists_resident (fills : directory.Fills space arena) {handle : Handle}
    {record : Record} (found : directory.get? handle = some record)
    (here : record.space = space) :
    ∃ resident ∈ arena.residents.toList, resident.handle = handle ∧
      record.size = resident.size ∧ record.address = arena.base + resident.offset := by
  obtain ⟨resident, member, rfl⟩ := Arena.mem_handles.mp (fills.complete handle record found here)
  obtain ⟨same, sameFound, place⟩ := fills.located resident member
  rw [found, Option.some.injEq] at sameFound
  subst sameFound
  simp only [Record.place, Prod.mk.injEq] at place
  exact ⟨resident, member, rfl, place.2.2, place.2.1⟩

theorem Fills.mem_handles_iff (fills : directory.Fills space arena) {handle : Handle} :
    handle ∈ arena.handles ↔
      ∃ record, directory.get? handle = some record ∧ record.space = space := by
  constructor
  · intro present
    obtain ⟨resident, member, rfl⟩ := Arena.mem_handles.mp present
    obtain ⟨record, found, place⟩ := fills.located resident member
    exact ⟨record, found, congrArg Prod.fst place⟩
  · intro recorded
    obtain ⟨record, found, here⟩ := recorded
    exact fills.complete handle record found here

theorem Fills.of_places (fills : directory.Fills space arena)
    (same : ∀ handle, (after.get? handle).map Record.place =
      (directory.get? handle).map Record.place) : after.Fills space arena where
  wellFormed := fills.wellFormed
  distinct := fills.distinct
  located := by
    intro resident member
    obtain ⟨record, found, place⟩ := fills.located resident member
    have lookup := same resident.handle
    rw [found, Option.map_some, Option.map_eq_some_iff] at lookup
    obtain ⟨current, currentFound, currentPlace⟩ := lookup
    exact ⟨current, currentFound, currentPlace.trans place⟩
  complete := by
    intro handle record found here
    have lookup := same handle
    rw [found, Option.map_some, eq_comm, Option.map_eq_some_iff] at lookup
    obtain ⟨earlier, earlierFound, earlierPlace⟩ := lookup
    exact fills.complete handle earlier earlierFound
      ((congrArg Prod.fst earlierPlace).trans here)

theorem Fills.of_records (fills : directory.Fills space arena)
    (same : ∀ handle record, record.space = space →
      (after.get? handle = some record ↔ directory.get? handle = some record)) :
    after.Fills space arena where
  wellFormed := fills.wellFormed
  distinct := fills.distinct
  located := by
    intro resident member
    obtain ⟨record, found, place⟩ := fills.located resident member
    exact ⟨record, (same _ record (congrArg Prod.fst place)).mpr found, place⟩
  complete := by
    intro handle record found here
    exact fills.complete handle record ((same handle record here).mp found) here

theorem Fills.of_change (fills : directory.Fills space arena) {changed : Handle}
    (outside : changed ∉ arena.handles)
    (others : ∀ handle, handle ≠ changed → after.get? handle = directory.get? handle)
    (away : ∀ record, after.get? changed = some record → record.space ≠ space) :
    after.Fills space arena := by
  refine fills.of_records fun handle record here => ?_
  by_cases same : handle = changed
  · subst same
    refine ⟨fun found => absurd here (away record found), fun found => ?_⟩
    exact absurd (fills.complete handle record found here) outside
  · rw [others handle same]

theorem Fills.push (fills : directory.Fills space arena) {handle : Handle} {record : Record}
    {size : Nat} (whole : WholeGranules size) (fits : arena.used + size ≤ arena.capacity)
    (outside : handle ∉ arena.handles) (found : after.get? handle = some record)
    (place : record.place = (space, arena.base + arena.used, size))
    (others : ∀ other, other ≠ handle → after.get? other = directory.get? other) :
    after.Fills space (arena.push handle size) where
  wellFormed := fills.wellFormed.push whole fits handle
  distinct := by
    rw [Arena.handles_push, List.nodup_append]
    refine ⟨fills.distinct, by simp, fun other member last equal same => ?_⟩
    rw [List.mem_singleton] at equal
    exact outside (equal ▸ same ▸ member)
  located := by
    intro resident member
    rw [Arena.toList_push, List.mem_append, List.mem_singleton] at member
    rcases member with member | rfl
    · have different : resident.handle ≠ handle := fun same =>
        outside (same ▸ Arena.mem_handles_of_mem member)
      obtain ⟨earlier, earlierFound, earlierPlace⟩ := fills.located resident member
      exact ⟨earlier, (others _ different).trans earlierFound, earlierPlace⟩
    · exact ⟨record, found, place⟩
  complete := by
    intro other current currentFound here
    rw [Arena.handles_push, List.mem_append, List.mem_singleton]
    by_cases same : other = handle
    · exact .inr same
    · exact .inl (fills.complete other current ((others other same).symm.trans currentFound)
        here)

theorem Fills.widen (fills : directory.Fills space arena) {capacity : Nat}
    (wider : arena.capacity ≤ capacity) : directory.Fills space { arena with capacity } where
  wellFormed := fills.wellFormed.widen wider
  distinct := fills.distinct
  located := fills.located
  complete := fills.complete

/-! ## Slides -/

/-- The records of the residents that stay in an arena, before their slide. -/
structure Stays (directory : Directory) (space : Space) (arena : Arena)
    (keep : Handle → Bool) : Prop where
  wellFormed : arena.WellFormed
  distinct : arena.handles.Nodup
  located : ∀ resident ∈ arena.residents.toList, keep resident.handle = true →
    directory.Locates space arena.base resident
  complete : ∀ handle record, directory.get? handle = some record → record.space = space →
    handle ∈ arena.handles ∧ keep handle = true

variable {keep : Handle → Bool}

theorem Stays.of_records (stays : directory.Stays space arena keep)
    (same : ∀ handle record, record.space = space →
      (after.get? handle = some record ↔ directory.get? handle = some record)) :
    after.Stays space arena keep where
  wellFormed := stays.wellFormed
  distinct := stays.distinct
  located := by
    intro resident member kept
    obtain ⟨record, found, place⟩ := stays.located resident member kept
    exact ⟨record, (same _ record (congrArg Prod.fst place)).mpr found, place⟩
  complete := by
    intro handle record found here
    exact stays.complete handle record ((same handle record here).mp found) here

def slideMoves (arena : Arena) (keep : Handle → Bool) : List Relocation :=
  relocations arena.base (arena.shifts keep)

theorem nodup_slideMoves (distinct : arena.handles.Nodup) :
    ((slideMoves arena keep).map Relocation.handle).Nodup :=
  nodup_relocations ((List.filter_sublist.map Resident.handle).nodup distinct)

theorem mem_slideMoves {move : Relocation} :
    move ∈ slideMoves arena keep ↔
      ∃ shift ∈ arena.shifts keep, shift.2 ≠ shift.1.offset ∧
        relocationOf arena.base shift = move := by
  simp only [slideMoves, relocations, List.mem_map, List.mem_filter, decide_eq_true_eq,
    and_assoc]

theorem mem_handles_of_slideMoves {handle : Handle}
    (named : handle ∈ (slideMoves arena keep).map Relocation.handle) :
    handle ∈ arena.handles ∧ keep handle = true := by
  obtain ⟨move, moved, rfl⟩ := List.mem_map.mp named
  obtain ⟨shift, shifted, _, rfl⟩ := mem_slideMoves.mp moved
  obtain ⟨resident, kept⟩ := Arena.mem_of_mem_shifts shifted
  exact ⟨Arena.mem_handles_of_mem resident, kept⟩

theorem Stays.get?_follow (stays : directory.Stays space arena keep) {shift : Resident × Nat}
    (shifted : shift ∈ arena.shifts keep) :
    (directory.follow (slideMoves arena keep)).get? shift.1.handle =
      (directory.get? shift.1.handle).map fun record =>
        { record with address := arena.base + shift.2 } := by
  obtain ⟨member, kept⟩ := Arena.mem_of_mem_shifts shifted
  by_cases still : shift.2 = shift.1.offset
  · have unnamed : shift.1.handle ∉ (slideMoves arena keep).map Relocation.handle := by
      intro named
      obtain ⟨move, moved, same⟩ := List.mem_map.mp named
      obtain ⟨other, otherShifted, differs, rfl⟩ := mem_slideMoves.mp moved
      have equal := Arena.shift_eq_of_handle_eq stays.distinct otherShifted shifted same
      exact differs (equal ▸ still)
    obtain ⟨record, found, place⟩ := stays.located shift.1 member kept
    rw [get?_follow_of_not_mem directory unnamed, found]
    have address : record.address = arena.base + shift.1.offset :=
      congrArg (fun place => place.2.1) place
    rw [Option.map_some, still, ← address]
  · exact get?_follow_of_mem (nodup_slideMoves stays.distinct)
      (mem_slideMoves.mpr ⟨shift, shifted, still, rfl⟩)

/-- Slides keep what records say about the objects themselves. -/
theorem contents_follow (directory : Directory) (moves : List Relocation) (handle : Handle) :
    ((directory.follow moves).get? handle).map Record.contents =
      (directory.get? handle).map Record.contents := by
  unfold follow
  induction moves generalizing directory with
  | nil => rfl
  | cons move rest ih =>
      rw [List.foldl_cons, ih, get?_update]
      split
      · rename_i same
        rw [same, Option.map_map]
        rfl
      · rfl

/-- After a slide the records and the residents of the arena agree again. -/
theorem Stays.fills_slid (stays : directory.Stays space arena keep) :
    (directory.follow (slideMoves arena keep)).Fills space (arena.slid keep) where
  wellFormed := stays.wellFormed.slid keep
  distinct := by
    rw [Arena.handles_slid]
    exact List.filter_sublist.nodup stays.distinct
  located := by
    intro resident member
    rw [Arena.toList_slid] at member
    obtain ⟨shift, shifted, rfl⟩ := List.mem_map.mp member
    obtain ⟨present, kept⟩ := Arena.mem_of_mem_shifts shifted
    obtain ⟨record, found, place⟩ := stays.located shift.1 present kept
    refine ⟨{ record with address := arena.base + shift.2 }, ?_, ?_⟩
    · rw [replaced_handle, stays.get?_follow shifted, found]
      rfl
    · simp only [Record.place, Prod.mk.injEq] at place ⊢
      exact ⟨place.1, rfl, place.2.2⟩
  complete := by
    intro handle record found here
    have unmoved : ∃ earlier, directory.get? handle = some earlier ∧ earlier.space = space := by
      by_cases named : handle ∈ (slideMoves arena keep).map Relocation.handle
      · obtain ⟨present, kept⟩ := mem_handles_of_slideMoves named
        obtain ⟨resident, member, rfl⟩ := Arena.mem_handles.mp present
        obtain ⟨earlier, earlierFound, place⟩ := stays.located resident member kept
        exact ⟨earlier, earlierFound, congrArg Prod.fst place⟩
      · rw [get?_follow_of_not_mem directory named] at found
        exact ⟨record, found, here⟩
    obtain ⟨earlier, earlierFound, earlierHere⟩ := unmoved
    obtain ⟨present, kept⟩ := stays.complete handle earlier earlierFound earlierHere
    rw [Arena.handles_slid]
    exact List.mem_filter.mpr ⟨present, kept⟩

theorem Stays.get?_follow_elsewhere (stays : directory.Stays space arena keep)
    {handle : Handle} (elsewhere : ∀ record, directory.get? handle = some record →
      record.space ≠ space) :
    (directory.follow (slideMoves arena keep)).get? handle = directory.get? handle := by
  refine directory.get?_follow_of_not_mem fun named => ?_
  obtain ⟨present, kept⟩ := mem_handles_of_slideMoves named
  obtain ⟨resident, member, rfl⟩ := Arena.mem_handles.mp present
  obtain ⟨record, found, place⟩ := stays.located resident member kept
  exact elsewhere record found (congrArg Prod.fst place)

/-- What becomes of a record in a slide: only the address of an object in the arena
changes, and it does not rise. -/
theorem Stays.get?_follow_eq_some (stays : directory.Stays space arena keep) {handle : Handle}
    {record : Record} (found : directory.get? handle = some record) :
    ∃ address, (directory.follow (slideMoves arena keep)).get? handle =
        some { record with address } ∧
      address ≤ record.address ∧ (record.space ≠ space → address = record.address) := by
  by_cases here : record.space = space
  · obtain ⟨present, kept⟩ := stays.complete handle record found here
    obtain ⟨resident, member, rfl⟩ := Arena.mem_handles.mp present
    obtain ⟨offset, shifted⟩ := Arena.exists_shift member kept
    obtain ⟨same, sameFound, place⟩ := stays.located resident member kept
    rw [found, Option.some.injEq] at sameFound
    subst sameFound
    have address : record.address = arena.base + resident.offset :=
      congrArg (fun place => place.2.1) place
    refine ⟨arena.base + offset, ?_, ?_, fun away => absurd here away⟩
    · rw [stays.get?_follow shifted, found]
      rfl
    · rw [address]
      exact Nat.add_le_add_left (stays.wellFormed.shift_le shifted) _
  · refine ⟨record.address, ?_, Nat.le_refl _, fun _ => rfl⟩
    rw [stays.get?_follow_elsewhere fun other otherFound => ?_, found]
    rw [found, Option.some.injEq] at otherFound
    exact otherFound ▸ here

theorem Stays.get?_follow_iff (stays : directory.Stays space arena keep) {handle : Handle}
    {record : Record} (elsewhere : record.space ≠ space) :
    (directory.follow (slideMoves arena keep)).get? handle = some record ↔
      directory.get? handle = some record := by
  have forward : ∀ earlier, directory.get? handle = some earlier → earlier.space ≠ space →
      (directory.follow (slideMoves arena keep)).get? handle = some earlier := by
    intro earlier found away
    obtain ⟨address, moved, _, same⟩ := stays.get?_follow_eq_some found
    rw [moved, same away]
  refine ⟨fun moved => ?_, fun found => forward record found elsewhere⟩
  cases found : directory.get? handle with
  | none =>
      have contents := directory.contents_follow (slideMoves arena keep) handle
      simp [moved, found] at contents
  | some earlier =>
      obtain ⟨address, same, _⟩ := stays.get?_follow_eq_some found
      rw [moved, Option.some.injEq] at same
      have away : earlier.space ≠ space := by
        rw [same] at elsewhere
        exact elsewhere
      rw [forward earlier found away] at moved
      exact moved

theorem Stays.fills_elsewhere (stays : directory.Stays space arena keep) {other : Space}
    {resting : Arena} (different : other ≠ space) (fills : directory.Fills other resting) :
    (directory.follow (slideMoves arena keep)).Fills other resting :=
  fills.of_records fun _ _ here => stays.get?_follow_iff (here ▸ different)

theorem Stays.stays_elsewhere (stays : directory.Stays space arena keep) {other : Space}
    {waiting : Arena} (different : other ≠ space) (others : directory.Stays other waiting keep) :
    (directory.follow (slideMoves arena keep)).Stays other waiting keep :=
  others.of_records fun _ _ here => stays.get?_follow_iff (here ▸ different)

/-- The moves of a slide are those of the objects whose address changes. -/
theorem Stays.mem_slideMoves_iff (stays : directory.Stays space arena keep)
    {move : Relocation} :
    move ∈ slideMoves arena keep ↔ ∃ record address,
      directory.get? move.handle = some record ∧ record.space = space ∧
        (directory.follow (slideMoves arena keep)).get? move.handle =
          some { record with address } ∧
        move.source = record.address ∧ move.target = address ∧ address ≠ record.address := by
  rw [mem_slideMoves]
  constructor
  · intro moved
    obtain ⟨shift, shifted, differs, rfl⟩ := moved
    obtain ⟨member, kept⟩ := Arena.mem_of_mem_shifts shifted
    obtain ⟨record, found, place⟩ := stays.located shift.1 member kept
    simp only [Record.place, Prod.mk.injEq] at place
    refine ⟨record, arena.base + shift.2, found, place.1, ?_, ?_, rfl, ?_⟩
    · simp only [relocationOf]
      rw [stays.get?_follow shifted, found]
      rfl
    · exact place.2.1.symm
    · rw [place.2.1]
      omega
  · intro displaced
    obtain ⟨record, address, found, here, moved, source, target, differs⟩ := displaced
    obtain ⟨present, kept⟩ := stays.complete _ record found here
    obtain ⟨resident, member, named⟩ := Arena.mem_handles.mp present
    rw [← named] at kept found moved
    obtain ⟨offset, shifted⟩ := Arena.exists_shift member kept
    obtain ⟨same, sameFound, place⟩ := stays.located resident member kept
    rw [found, Option.some.injEq] at sameFound
    subst sameFound
    simp only [Record.place, Prod.mk.injEq] at place
    have lookup := stays.get?_follow shifted
    rw [moved, found, Option.map_some, Option.some.injEq] at lookup
    have address_eq : address = arena.base + offset := congrArg Record.address lookup
    refine ⟨(resident, offset), shifted, ?_, ?_⟩
    · intro still
      have still : offset = resident.offset := still
      exact differs (by rw [address_eq, still, place.2.1])
    · cases move
      simp only [relocationOf, Relocation.mk.injEq]
      exact ⟨named, place.2.1.symm.trans source.symm, address_eq.symm.trans target.symm⟩

end Directory

end Tenure
