import Tenure.Proofs.Directory.Lookup

/-!
# Slots of the directory

A directory is well-formed if its free list holds exactly the slots without an
object, each once, and its count is that of the others. Every operation keeps this.
-/

set_option autoImplicit false

namespace Tenure.Directory

/-- The free list and the number of live objects agree with the slots. -/
structure WellFormed (directory : Directory) : Prop where
  free_nodup : directory.free.Nodup
  mem_free : ∀ slot : UInt32, slot ∈ directory.free ↔
    ∃ epoch, directory.entries[slot.toNat]? = some { epoch, record := none }
  size_le : directory.entries.size ≤ slotLimit
  live_eq : directory.live = directory.entries.toList.countP fun entry => entry.record.isSome

theorem wellFormed_empty : empty.WellFormed where
  free_nodup := List.nodup_nil
  mem_free := by simp [empty]
  size_le := Nat.zero_le slotLimit
  live_eq := rfl

/-- Changing one item of a list changes a count by what the item counted before and
counts now. -/
private theorem countP_modify {Item : Type} (counted : Item → Bool) (change : Item → Item)
    {items : List Item} {index : Nat} {item : Item} (found : items[index]? = some item) :
    (items.modify index change).countP counted + (if counted item then 1 else 0) =
      items.countP counted + if counted (change item) then 1 else 0 := by
  induction items generalizing index with
  | nil => simp at found
  | cons first rest ih =>
      cases index with
      | zero =>
          simp only [List.getElem?_cons_zero, Option.some.injEq] at found
          subst found
          simp only [List.modify_zero_cons, List.countP_cons]
          omega
      | succ index =>
          have later : rest[index]? = some item := by simpa using found
          have same := ih later
          simp only [List.modify_succ_cons, List.countP_cons]
          omega

theorem live_pos_of_get? {directory : Directory} (wellFormed : directory.WellFormed)
    {handle : Handle} {record : Record} (found : directory.get? handle = some record) :
    0 < directory.live := by
  rw [wellFormed.live_eq, List.countP_pos_iff]
  have entry := get?_eq_some_iff.mp found
  rw [← Array.getElem?_toList] at entry
  exact ⟨_, List.mem_of_getElem? entry, rfl⟩

theorem WellFormed.update {directory : Directory} (wellFormed : directory.WellFormed)
    (handle : Handle) (change : Record → Record) :
    (directory.update handle change).WellFormed := by
  unfold Directory.update
  split
  · rename_i live
    obtain ⟨record, found⟩ := isLive_iff.mp live
    have entry := get?_eq_some_iff.mp found
    refine ⟨wellFormed.free_nodup, fun slot => ?_, ?_, ?_⟩
    · rw [wellFormed.mem_free, Array.getElem?_modify]
      split
      · rename_i same
        rw [← same, entry]
        simp
      · rfl
    · simpa using wellFormed.size_le
    · rw [← Array.getElem?_toList] at entry
      have counts := countP_modify (fun entry : Entry => entry.record.isSome)
        (fun entry => { entry with record := entry.record.map change }) entry
      simp only [Option.isSome_some, Option.map_some, ↓reduceIte] at counts
      rw [Array.toList_modify, wellFormed.live_eq]
      omega
  · exact wellFormed

theorem WellFormed.follow {directory : Directory} (wellFormed : directory.WellFormed)
    (moves : List Relocation) : (directory.follow moves).WellFormed := by
  unfold Directory.follow
  induction moves generalizing directory with
  | nil => exact wellFormed
  | cons move rest ih => exact ih (wellFormed.update move.handle _)

theorem WellFormed.vacated {directory : Directory} (wellFormed : directory.WellFormed)
    {handle : Handle} {record : Record} (found : directory.get? handle = some record) :
    (directory.vacated handle).WellFormed := by
  have entry := get?_eq_some_iff.mp found
  have occupied : handle.slot ∉ directory.free := by
    rw [wellFormed.mem_free, entry]
    simp
  refine ⟨List.nodup_cons.mpr ⟨occupied, wellFormed.free_nodup⟩, fun slot => ?_, ?_, ?_⟩
  · simp only [Directory.vacated, List.mem_cons, wellFormed.mem_free, Array.getElem?_modify]
    by_cases same : slot = handle.slot
    · subst same
      simp [entry]
    · have different : handle.slot.toNat ≠ slot.toNat := fun equal =>
        same (UInt32.toNat_inj.mp equal).symm
      simp [same, different]
  · simpa [Directory.vacated] using wellFormed.size_le
  · have positive := live_pos_of_get? wellFormed found
    rw [← Array.getElem?_toList] at entry
    have counts := countP_modify (fun entry : Entry => entry.record.isSome)
      (fun entry => { epoch := entry.epoch + 1, record := none }) entry
    simp only [Option.isSome_some, Option.isSome_none, Bool.false_eq_true, ↓reduceIte] at counts
    have live := wellFormed.live_eq
    simp only [Directory.vacated, Array.toList_modify]
    omega

theorem WellFormed.sweep {directory after : Directory} (wellFormed : directory.WellFormed)
    {dead : List Handle} {tally : Tally} (ran : directory.sweep dead = .ok (tally, after)) :
    after.WellFormed ∧ after.live + tally.objects = directory.live := by
  refine sweep_induction (fun _ tally current =>
    current.WellFormed ∧ current.live + tally.objects = directory.live)
    ran ⟨wellFormed, rfl⟩ (fun _ _ _ _ holds _ => holds) ?_
  intro _ handle tally current record holds found positive
  obtain ⟨currentFormed, counts⟩ := holds
  refine ⟨currentFormed.vacated found, ?_⟩
  simp only [Directory.vacated]
  omega

theorem WellFormed.get?_fresh {directory : Directory} (wellFormed : directory.WellFormed)
    {handle : Handle} (fresh : directory.fresh? = some handle) :
    directory.get? handle = none := by
  cases fresh?_eq_some fresh with
  | reused free _ _ =>
      obtain ⟨epoch, vacant⟩ := (wellFormed.mem_free handle.slot).mp (by simp [free])
      simp [get?, vacant]
  | added _ slot _ _ => rw [get?, slot, Array.getElem?_eq_none (Nat.le_refl _)]

theorem WellFormed.insert {directory : Directory} (wellFormed : directory.WellFormed)
    {handle : Handle} (fresh : directory.fresh? = some handle) (record : Record) :
    (directory.insert record).WellFormed := by
  unfold Directory.insert
  have live := wellFormed.live_eq
  cases fresh?_eq_some fresh with
  | reused free _ _ =>
      have distinct := wellFormed.free_nodup
      rw [free] at distinct ⊢
      obtain ⟨unlisted, distinct⟩ := List.nodup_cons.mp distinct
      obtain ⟨epoch, vacant⟩ := (wellFormed.mem_free handle.slot).mp (by simp [free])
      refine ⟨distinct, fun other => ?_, ?_, ?_⟩
      · have listed := wellFormed.mem_free other
        rw [free, List.mem_cons] at listed
        simp only [Array.getElem?_modify]
        by_cases same : other = handle.slot
        · subst same
          simp [unlisted, vacant]
        · have different : handle.slot.toNat ≠ other.toNat := fun equal =>
            same (UInt32.toNat_inj.mp equal).symm
          rw [if_neg different, ← listed]
          simp [same]
      · simpa using wellFormed.size_le
      · rw [← Array.getElem?_toList] at vacant
        have counts := countP_modify (fun entry : Entry => entry.record.isSome)
          (fun entry => { entry with record := some record }) vacant
        simp only [Option.isSome_some, Option.isSome_none, Bool.false_eq_true, ↓reduceIte]
          at counts
        simp only [Array.toList_modify]
        omega
  | added free _ _ room =>
      rw [free]
      refine ⟨List.nodup_nil, fun slot => ?_, ?_, ?_⟩
      · have listed := wellFormed.mem_free slot
        rw [free] at listed
        simp only [Array.getElem?_push]
        split
        · simp
        · exact listed
      · simp only [Array.size_push]
        omega
      · simp only [Array.toList_push, List.countP_append, List.countP_singleton,
          Option.isSome_some, ↓reduceIte]
        omega

/-! ## The live handles -/

/-- The handles of the live objects, in the order of their slots. -/
def handles (directory : Directory) : List Handle :=
  directory.entries.toList.zipIdx.filterMap fun (entry, slot) =>
    entry.record.map fun _ => { slot := slot.toUInt32, epoch := entry.epoch }

theorem WellFormed.length_handles {directory : Directory} (wellFormed : directory.WellFormed) :
    directory.handles.length = directory.live := by
  rw [handles, List.length_filterMap_eq_countP, wellFormed.live_eq]
  conv => rhs; rw [← List.zipIdx_map_fst 0 directory.entries.toList, List.countP_map]
  refine List.countP_congr fun entry _ => ?_
  simp

private theorem toNat_slot {directory : Directory} (wellFormed : directory.WellFormed)
    {index : Nat} {entry : Entry} (found : directory.entries.toList[index]? = some entry) :
    index.toUInt32.toNat = index := by
  have bounded := wellFormed.size_le
  obtain ⟨inside, _⟩ := List.getElem?_eq_some_iff.mp found
  simp only [Array.length_toList, slotLimit] at inside bounded
  rw [UInt32.toNat_ofNat']
  exact Nat.mod_eq_of_lt (by omega)

/-- The free list names slots by words; it misses no slot without an object. -/
theorem WellFormed.exists_free_iff {directory : Directory} (wellFormed : directory.WellFormed)
    {index : Nat} : (∃ slot ∈ directory.free, slot.toNat = index) ↔
      ∃ epoch, directory.entries[index]? = some { epoch, record := none } := by
  constructor
  · intro listed
    obtain ⟨slot, member, rfl⟩ := listed
    exact (wellFormed.mem_free slot).mp member
  · intro vacant
    obtain ⟨epoch, found⟩ := vacant
    have same := toNat_slot wellFormed ((Array.getElem?_toList ..).trans found)
    refine ⟨index.toUInt32, (wellFormed.mem_free _).mpr ⟨epoch, ?_⟩, same⟩
    rw [same]
    exact found

theorem WellFormed.mem_handles {directory : Directory} (wellFormed : directory.WellFormed)
    {handle : Handle} : handle ∈ directory.handles ↔ directory.isLive handle = true := by
  rw [handles, List.mem_filterMap, isLive_iff]
  constructor
  · intro listed
    obtain ⟨⟨entry, index⟩, member, named⟩ := listed
    have found := List.mk_mem_zipIdx_iff_getElem?.mp member
    obtain ⟨record, content, rfl⟩ := Option.map_eq_some_iff.mp named
    refine ⟨record, get?_eq_some_iff.mpr ?_⟩
    simp only
    rw [toNat_slot wellFormed found, ← Array.getElem?_toList, found, ← content]
  · intro live
    obtain ⟨record, found⟩ := live
    have entry := get?_eq_some_iff.mp found
    rw [← Array.getElem?_toList] at entry
    exact ⟨_, List.mk_mem_zipIdx_iff_getElem?.mpr entry, by simp⟩

theorem WellFormed.nodup_handles {directory : Directory} (wellFormed : directory.WellFormed) :
    directory.handles.Nodup := by
  unfold handles List.Nodup
  rw [List.pairwise_filterMap, List.pairwise_iff_getElem]
  intro first second firstInside secondInside ordered left leftNamed right rightNamed same
  rw [List.length_zipIdx] at firstInside secondInside
  simp only [List.getElem_zipIdx, Nat.zero_add, Option.map_eq_some_iff] at leftNamed rightNamed
  obtain ⟨_, _, rfl⟩ := leftNamed
  obtain ⟨_, _, rfl⟩ := rightNamed
  have slots := congrArg (fun handle => handle.slot.toNat) same
  simp only at slots
  rw [toNat_slot wellFormed (List.getElem?_eq_getElem firstInside),
    toNat_slot wellFormed (List.getElem?_eq_getElem secondInside)] at slots
  omega

end Tenure.Directory
