import Tenure.Heap.Directory
import Tenure.Proofs.Checked
import Tenure.Proofs.Handle

/-!
# Looking up objects

What each change of the directory does to the records that handles lead to. A change
concerns one handle; another handle for the same slot is stale before and after it.
-/

set_option autoImplicit false

namespace Tenure.Directory

theorem get?_eq_some_iff {directory : Directory} {handle : Handle} {record : Record} :
    directory.get? handle = some record ↔
      directory.entries[handle.slot.toNat]? =
        some { epoch := handle.epoch, record := some record } := by
  unfold get?
  cases found : directory.entries[handle.slot.toNat]? with
  | none => simp
  | some entry =>
      obtain ⟨epoch, content⟩ := entry
      by_cases same : epoch = handle.epoch
      · simp [same]
      · simp [same]

@[simp] theorem get?_empty (handle : Handle) : empty.get? handle = none := by
  simp [empty, get?]

theorem isLive_iff {directory : Directory} {handle : Handle} :
    directory.isLive handle = true ↔ ∃ record, directory.get? handle = some record := by
  rw [isLive, Option.isSome_iff_exists]

theorem isLive_eq_false_iff {directory : Directory} {handle : Handle} :
    directory.isLive handle = false ↔ directory.get? handle = none := by
  rw [isLive, Option.isSome_eq_false_iff, Option.isNone_iff_eq_none]

theorem generation?_eq_some_iff {directory : Directory} {handle : Handle}
    {generation : Generation} :
    directory.generation? handle = some generation ↔
      ∃ record, directory.get? handle = some record ∧ record.generation = generation := by
  rw [generation?, Option.map_eq_some_iff]

theorem generation?_eq_some_iff_of_get? {directory : Directory} {handle : Handle}
    {record : Record} (found : directory.get? handle = some record) {generation : Generation} :
    directory.generation? handle = some generation ↔ record.generation = generation := by
  rw [generation?, found, Option.map_some, Option.some.injEq]

theorem isYoung_iff {directory : Directory} {handle : Handle} :
    directory.isYoung handle = true ↔
      ∃ record, directory.get? handle = some record ∧ record.generation ≠ .old := by
  unfold isYoung generation?
  cases directory.get? handle with
  | none => simp
  | some record =>
      cases generation : record.generation <;> simp [generation, Generation.isYoung]

theorem generation_ne_old {directory : Directory} {handle : Handle} {record : Record}
    (young : directory.isYoung handle = true) (found : directory.get? handle = some record) :
    record.generation ≠ .old := by
  obtain ⟨same, sameFound, young⟩ := isYoung_iff.mp young
  rw [found, Option.some.injEq] at sameFound
  exact sameFound ▸ young

theorem isLive_of_isYoung {directory : Directory} {handle : Handle}
    (young : directory.isYoung handle = true) : directory.isLive handle = true := by
  obtain ⟨record, found, _⟩ := isYoung_iff.mp young
  exact isLive_iff.mpr ⟨record, found⟩

theorem mem_graph_iff {directory : Directory} {holder : Handle} {field : Option Handle} :
    field ∈ directory.graph holder ↔
      ∃ record, directory.get? holder = some record ∧ field ∈ record.fields := by
  unfold graph
  cases directory.get? holder with
  | none => simp
  | some record => simp

theorem referencesYoung_iff {directory : Directory} {holder : Handle} :
    directory.referencesYoung holder = true ↔
      ∃ target, some target ∈ directory.graph holder ∧ directory.isYoung target = true := by
  simp [referencesYoung, List.any_eq_true]

private theorem getElem?_update {directory : Directory} {handle : Handle}
    (live : directory.isLive handle = true) (change : Record → Record) (index : Nat) :
    (directory.update handle change).entries[index]? =
      if handle.slot.toNat = index then
        directory.entries[index]?.map fun entry =>
          { entry with record := entry.record.map change }
      else directory.entries[index]? := by
  simp [update, live, Array.getElem?_modify]

theorem get?_update (directory : Directory) (handle other : Handle)
    (change : Record → Record) :
    (directory.update handle change).get? other =
      if other = handle then (directory.get? handle).map change
      else directory.get? other := by
  by_cases live : directory.isLive handle = true
  · obtain ⟨record, found⟩ := isLive_iff.mp live
    have entry := get?_eq_some_iff.mp found
    by_cases same : other = handle
    · subst same
      rw [if_pos rfl, found, Option.map_some, get?_eq_some_iff, getElem?_update live,
        if_pos rfl, entry]
      rfl
    · rw [if_neg same, get?, getElem?_update live, get?]
      by_cases slot : handle.slot.toNat = other.slot.toNat
      · -- Both handles name one slot, so their epochs differ and `other` is stale.
        have slot : handle.slot = other.slot := UInt32.toNat_inj.mp slot
        rw [if_pos (congrArg UInt32.toNat slot), ← slot, entry]
        simp [Handle.epoch_ne slot same]
      · rw [if_neg slot]
  · have stale : directory.get? handle = none := by
      rwa [← isLive_eq_false_iff, ← Bool.not_eq_true]
    have unchanged : directory.update handle change = directory := by simp [update, live]
    rw [unchanged]
    split
    · rename_i same
      rw [same, stale]
      rfl
    · rfl

@[simp] theorem isLive_update (directory : Directory) (handle other : Handle)
    (change : Record → Record) :
    (directory.update handle change).isLive other = directory.isLive other := by
  unfold isLive
  rw [get?_update]
  split
  · rename_i same
    rw [same, Option.isSome_map]
  · rfl

/-- The directory without an object, whose slot is free again. -/
def vacated (directory : Directory) (handle : Handle) : Directory :=
  { entries := directory.entries.modify handle.slot.toNat fun entry =>
      { epoch := entry.epoch + 1, record := none }
    free := handle.slot :: directory.free
    live := directory.live - 1 }

theorem release_eq_ok {directory after : Directory} {handle : Handle} {answer : Option Record}
    (ran : directory.release handle = .ok (answer, after)) :
    (answer = none ∧ directory.get? handle = none ∧ after = directory) ∨
      ∃ record, answer = some record ∧ directory.get? handle = some record ∧
        1 ≤ directory.live ∧ after = directory.vacated handle := by
  unfold release at ran
  cases found : directory.get? handle with
  | none =>
      simp only [found, Checked.pure_eq_ok_iff, Prod.mk.injEq] at ran
      obtain ⟨rfl, rfl⟩ := ran
      exact .inl ⟨rfl, rfl, rfl⟩
  | some record =>
      simp only [found, Checked.bind_eq_ok_iff, Word.sub_eq_ok_iff, Checked.pure_eq_ok_iff,
        Prod.mk.injEq] at ran
      obtain ⟨live, ⟨positive, rfl⟩, rfl, rfl⟩ := ran
      exact .inr ⟨record, rfl, rfl, positive, rfl⟩

theorem get?_vacated {directory : Directory} {handle : Handle} {record : Record}
    (found : directory.get? handle = some record) (other : Handle) :
    (directory.vacated handle).get? other =
      if other = handle then none else directory.get? other := by
  have entry := get?_eq_some_iff.mp found
  unfold get?
  simp only [vacated, Array.getElem?_modify]
  by_cases same : other = handle
  · subst same
    rw [if_pos rfl, if_pos rfl, entry]
    simp
  · rw [if_neg same]
    by_cases slot : handle.slot.toNat = other.slot.toNat
    · have slot : handle.slot = other.slot := UInt32.toNat_inj.mp slot
      rw [if_pos (congrArg UInt32.toNat slot), ← slot, entry]
      simp [Handle.epoch_ne slot same]
    · rw [if_neg slot]

/-- What every reclaimed object keeps, counted with its size, holds at the end of a sweep. -/
theorem sweep_induction {directory after : Directory} {dead : List Handle} {tally : Tally}
    (invariant : List Handle → Tally → Directory → Prop)
    (ran : directory.sweep dead = .ok (tally, after))
    (start : invariant [] { objects := 0, bytes := 0 } directory)
    (stale : ∀ seen handle tally current, invariant seen tally current →
      current.get? handle = none → invariant (seen ++ [handle]) tally current)
    (found : ∀ seen handle tally current record, invariant seen tally current →
      current.get? handle = some record → 1 ≤ current.live →
      invariant (seen ++ [handle])
        { objects := tally.objects + 1, bytes := tally.bytes + record.size }
        (current.vacated handle)) :
    invariant dead tally after := by
  unfold sweep at ran
  refine Checked.foldlM_induction
    (fun seen (state : Tally × Directory) => invariant seen state.1 state.2) ran start ?_
  intro seen handle rest state final _ holds stepped
  obtain ⟨tally, current⟩ := state
  simp only [Checked.bind_eq_ok_iff] at stepped
  obtain ⟨⟨answer, released⟩, release, answered⟩ := stepped
  rcases release_eq_ok release with ⟨rfl, unknown, rfl⟩ | ⟨record, rfl, known, positive, rfl⟩
  · rw [Checked.pure_eq_ok_iff] at answered
    exact answered ▸ stale seen handle tally released holds unknown
  · simp only [Checked.bind_eq_ok_iff, Word.add_eq_ok_iff, Checked.pure_eq_ok_iff] at answered
    obtain ⟨bytes, ⟨_, rfl⟩, rfl⟩ := answered
    exact found seen handle tally current record holds known positive

/-- A sweep reclaims the objects it is given, and no others. -/
theorem get?_sweep {directory after : Directory} {dead : List Handle} {tally : Tally}
    (ran : directory.sweep dead = .ok (tally, after)) (handle : Handle) :
    after.get? handle = if handle ∈ dead then none else directory.get? handle := by
  refine sweep_induction (fun seen _ current =>
    current.get? handle = if handle ∈ seen then none else directory.get? handle)
    ran (by simp) ?_ ?_
  · intro seen next _ current holds unknown
    simp only [List.mem_append, List.mem_singleton]
    by_cases same : handle = next
    · simp [same, unknown]
    · simp [holds, same]
  · intro seen next _ current record holds known _
    rw [get?_vacated known, holds]
    simp only [List.mem_append, List.mem_singleton]
    by_cases same : handle = next
    · simp [same]
    · simp [same]

/-- The next object gets the slot that was freed last, or a slot that is added for it. -/
inductive Fresh (directory : Directory) (handle : Handle) : Prop where
  | reused {rest : List UInt32} {entry : Entry} (free : directory.free = handle.slot :: rest)
      (found : directory.entries[handle.slot.toNat]? = some entry)
      (epoch : entry.epoch = handle.epoch) : Fresh directory handle
  | added (free : directory.free = []) (slot : handle.slot.toNat = directory.entries.size)
      (epoch : handle.epoch = 0) (room : directory.entries.size < slotLimit) :
      Fresh directory handle

theorem fresh?_eq_some {directory : Directory} {handle : Handle}
    (fresh : directory.fresh? = some handle) : directory.Fresh handle := by
  unfold fresh? at fresh
  cases free : directory.free with
  | cons slot rest =>
      simp only [free, Option.map_eq_some_iff] at fresh
      obtain ⟨entry, found, rfl⟩ := fresh
      exact .reused free found rfl
  | nil =>
      simp only [free] at fresh
      split at fresh
      · rename_i room
        simp only [Option.some.injEq] at fresh
        subst fresh
        refine .added free ?_ rfl room
        rw [UInt32.toNat_ofNat']
        exact Nat.mod_eq_of_lt (by simp only [slotLimit] at room; omega)
      · simp at fresh

theorem get?_insert {directory : Directory} {handle : Handle} (record : Record)
    (fresh : directory.fresh? = some handle) (other : Handle) :
    (directory.insert record).get? other =
      if other = handle then some record else directory.get? other := by
  unfold insert
  by_cases same : other = handle
  · subst same
    rw [if_pos rfl, get?_eq_some_iff]
    cases fresh?_eq_some fresh with
    | reused free found epoch =>
        simp only [free, Array.getElem?_modify, ↓reduceIte, found, Option.map_some, epoch]
    | added free slot epoch _ => simp [free, slot, epoch]
  · rw [if_neg same]
    cases fresh?_eq_some fresh with
    | reused free found epoch =>
        simp only [free, get?, Array.getElem?_modify]
        by_cases slot : handle.slot.toNat = other.slot.toNat
        · have stale := Handle.epoch_ne (UInt32.toNat_inj.mp slot) same
          rw [← slot]
          simp [found, epoch, stale]
        · simp [slot]
    | added free slot epoch _ =>
        simp only [free, get?, Array.getElem?_push]
        by_cases here : other.slot.toNat = directory.entries.size
        · have stale := Handle.epoch_ne (UInt32.toNat_inj.mp (slot.trans here.symm)) same
          rw [epoch] at stale
          simp [here, stale]
        · simp [here]

/-! ## Moves -/

theorem get?_follow_of_not_mem (directory : Directory) {moves : List Relocation}
    {handle : Handle} (unnamed : handle ∉ moves.map Relocation.handle) :
    (directory.follow moves).get? handle = directory.get? handle := by
  unfold follow
  induction moves generalizing directory with
  | nil => rfl
  | cons move rest ih =>
      simp only [List.map_cons, List.mem_cons, not_or] at unnamed
      rw [List.foldl_cons, ih _ unnamed.2, get?_update, if_neg unnamed.1]

theorem get?_follow_of_mem {directory : Directory} {moves : List Relocation}
    (distinct : (moves.map Relocation.handle).Nodup) {move : Relocation}
    (member : move ∈ moves) :
    (directory.follow moves).get? move.handle =
      (directory.get? move.handle).map fun record => { record with address := move.target } := by
  unfold follow
  induction moves generalizing directory with
  | nil => simp at member
  | cons first rest ih =>
      obtain ⟨unnamed, distinct⟩ := List.nodup_cons.mp distinct
      rw [List.foldl_cons]
      rcases List.mem_cons.mp member with rfl | member
      · have kept := get?_follow_of_not_mem (directory.update move.handle
          fun record => { record with address := move.target }) unnamed
        unfold follow at kept
        rw [kept, get?_update, if_pos rfl]
      · have different : move.handle ≠ first.handle := by
          intro same
          exact unnamed (same ▸ List.mem_map_of_mem member)
        rw [ih distinct member, get?_update, if_neg different]

end Tenure.Directory
