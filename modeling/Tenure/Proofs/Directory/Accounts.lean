import Tenure.Proofs.Directory.Bounds

/-!
# The objects of a directory in numbers

The live objects and their bytes are counted over the handles of a directory, or over any
other list that names each live object once. Moves leave both numbers alone, a new object
adds to them, and a sweep takes away exactly what its tally says.
-/

set_option autoImplicit false

namespace Tenure.Directory

variable {directory after : Directory} {handle : Handle} {record : Record}

/-- The bytes that the live objects take. -/
def bytes (directory : Directory) : Nat := directory.storage directory.handles

theorem storage_congr {handles : List Handle}
    (same : ∀ handle ∈ handles, after.sizeOf handle = directory.sizeOf handle) :
    after.storage handles = directory.storage handles :=
  congrArg List.sum (List.map_congr_left same)

theorem WellFormed.storage_eq_bytes (wellFormed : directory.WellFormed) {handles : List Handle}
    (distinct : handles.Nodup)
    (members : ∀ handle, handle ∈ handles ↔ directory.isLive handle = true) :
    directory.storage handles = directory.bytes := by
  have listed : handles.Perm directory.handles :=
    (List.perm_ext_iff_of_nodup distinct wellFormed.nodup_handles).mpr fun handle => by
      rw [members, wellFormed.mem_handles]
  exact (listed.map directory.sizeOf).sum_nat

theorem sizeOf_eq (directory : Directory) (handle : Handle) :
    directory.sizeOf handle = ((directory.get? handle).map Record.size).getD 0 := by
  unfold sizeOf
  cases directory.get? handle with
  | none => rfl
  | some record => rfl

theorem WellFormed.bytes_eq_zero (wellFormed : directory.WellFormed)
    (empty : directory.live = 0) : directory.bytes = 0 := by
  have unlisted : directory.handles = [] :=
    List.eq_nil_of_length_eq_zero (wellFormed.length_handles.trans empty)
  rw [bytes, unlisted, storage_nil]

/-! ## Young objects -/

/-- The handles of the young objects. -/
def youngs (directory : Directory) : List Handle :=
  directory.handles.filter directory.isYoung

theorem WellFormed.mem_youngs (wellFormed : directory.WellFormed) :
    handle ∈ directory.youngs ↔ directory.isYoung handle = true := by
  rw [youngs, List.mem_filter, wellFormed.mem_handles]
  exact and_iff_right_of_imp isLive_of_isYoung

theorem WellFormed.nodup_youngs (wellFormed : directory.WellFormed) : directory.youngs.Nodup :=
  wellFormed.nodup_handles.filter _

theorem WellFormed.length_youngs_le (wellFormed : directory.WellFormed) :
    directory.youngs.length ≤ directory.live := by
  rw [← wellFormed.length_handles]
  exact List.length_filter_le _ _

/-- There are at most as many young objects as any list has that names all of them. -/
theorem WellFormed.length_youngs_le_of_subset (wellFormed : directory.WellFormed)
    (handles : List Handle)
    (listed : ∀ handle, directory.isYoung handle = true → handle ∈ handles) :
    directory.youngs.length ≤ handles.length := by
  refine (wellFormed.nodup_youngs.subperm fun handle member => ?_).length_le
  exact listed handle (wellFormed.mem_youngs.mp member)

/-! ## Moves -/

/-- The same objects are live, with the same sizes. -/
def SameSizes (directory after : Directory) : Prop :=
  ∀ handle, (after.get? handle).map Record.size = (directory.get? handle).map Record.size

theorem SameSizes.isLive (same : directory.SameSizes after) (handle : Handle) :
    after.isLive handle = directory.isLive handle := by
  have sizes := congrArg Option.isSome (same handle)
  simpa only [Directory.isLive, Option.isSome_map] using sizes

theorem SameSizes.perm_handles (same : directory.SameSizes after)
    (wellFormed : directory.WellFormed) (afterFormed : after.WellFormed) :
    after.handles.Perm directory.handles :=
  (List.perm_ext_iff_of_nodup afterFormed.nodup_handles wellFormed.nodup_handles).mpr
    fun handle => by rw [afterFormed.mem_handles, wellFormed.mem_handles, same.isLive]

theorem SameSizes.live_eq (same : directory.SameSizes after) (wellFormed : directory.WellFormed)
    (afterFormed : after.WellFormed) : after.live = directory.live := by
  rw [← afterFormed.length_handles, ← wellFormed.length_handles]
  exact (same.perm_handles wellFormed afterFormed).length_eq

theorem SameSizes.bytes_eq (same : directory.SameSizes after) (wellFormed : directory.WellFormed)
    (afterFormed : after.WellFormed) : after.bytes = directory.bytes := by
  have sizes : after.storage after.handles = directory.storage after.handles :=
    storage_congr fun handle _ => by rw [sizeOf_eq, same, ← sizeOf_eq]
  exact sizes.trans ((same.perm_handles wellFormed afterFormed).map directory.sizeOf).sum_nat

/-! ## New objects and reclaimed ones -/

theorem live_insert (directory : Directory) (record : Record) :
    (directory.insert record).live = directory.live + 1 := by
  unfold insert
  split <;> rfl

theorem WellFormed.bytes_insert (wellFormed : directory.WellFormed)
    (fresh : directory.fresh? = some handle) (record : Record) :
    (directory.insert record).bytes = directory.bytes + record.size := by
  have lookup := get?_insert record fresh
  have unlisted : handle ∉ directory.handles := by
    rw [wellFormed.mem_handles, isLive, wellFormed.get?_fresh fresh]
    simp
  have different : ∀ other ∈ directory.handles, other ≠ handle :=
    fun other member same => unlisted (same ▸ member)
  have members : ∀ other, other ∈ handle :: directory.handles ↔
      (directory.insert record).isLive other = true := by
    intro other
    simp only [List.mem_cons, wellFormed.mem_handles, isLive, lookup]
    by_cases same : other = handle
    · simp [same]
    · simp [same]
  have inserted := wellFormed.insert fresh record
  have here : (directory.insert record).get? handle = some record := by rw [lookup, if_pos rfl]
  rw [← inserted.storage_eq_bytes (List.nodup_cons.mpr ⟨unlisted, wellFormed.nodup_handles⟩)
    members, storage_cons, sizeOf_of_get? here, Nat.add_comm, storage_congr]
  · rfl
  · intro other member
    rw [sizeOf_eq, lookup, if_neg (different other member), ← sizeOf_eq]

theorem WellFormed.bytes_vacated (wellFormed : directory.WellFormed)
    (found : directory.get? handle = some record) :
    (directory.vacated handle).bytes + record.size = directory.bytes := by
  have lookup := get?_vacated found
  have vacated := wellFormed.vacated found
  have unlisted : handle ∉ (directory.vacated handle).handles := by
    rw [vacated.mem_handles, isLive, lookup, if_pos rfl]
    simp
  have different : ∀ other ∈ (directory.vacated handle).handles, other ≠ handle :=
    fun other member same => unlisted (same ▸ member)
  have members : ∀ other, other ∈ handle :: (directory.vacated handle).handles ↔
      directory.isLive other = true := by
    intro other
    simp only [List.mem_cons, vacated.mem_handles, isLive, lookup]
    by_cases same : other = handle
    · simp [same, found]
    · simp [same]
  rw [← wellFormed.storage_eq_bytes (List.nodup_cons.mpr ⟨unlisted, vacated.nodup_handles⟩)
    members, storage_cons, sizeOf_of_get? found, Nat.add_comm, bytes, storage_congr]
  intro other member
  rw [sizeOf_eq, lookup, if_neg (different other member), ← sizeOf_eq]

/-- A sweep of live objects counts each of them. -/
theorem WellFormed.objects_sweep (wellFormed : directory.WellFormed) {dead : List Handle}
    {tally : Tally} (distinct : dead.Nodup)
    (live : ∀ handle ∈ dead, directory.isLive handle = true)
    (ran : directory.sweep dead = .ok (tally, after)) : tally.objects = dead.length := by
  obtain ⟨swept, counted⟩ := wellFormed.sweep ran
  have left : ∀ handle, handle ∈ after.handles ↔
      handle ∉ dead ∧ directory.isLive handle = true := by
    intro handle
    rw [swept.mem_handles, isLive, get?_sweep ran]
    by_cases doomed : handle ∈ dead
    · simp [doomed]
    · simp [doomed, isLive]
  have parted : (after.handles ++ dead).Perm directory.handles := by
    refine (List.perm_ext_iff_of_nodup ?_ wellFormed.nodup_handles).mpr fun handle => ?_
    · refine List.nodup_append.mpr ⟨swept.nodup_handles, distinct, ?_⟩
      rintro handle kept _ doomed rfl
      exact ((left handle).mp kept).1 doomed
    · rw [List.mem_append, left, wellFormed.mem_handles]
      constructor
      · rintro (kept | doomed)
        · exact kept.2
        · exact live handle doomed
      · intro alive
        by_cases doomed : handle ∈ dead
        · exact .inr doomed
        · exact .inl ⟨doomed, alive⟩
  have total := parted.length_eq
  rw [List.length_append, swept.length_handles, wellFormed.length_handles] at total
  omega

/-- A sweep takes away the bytes that it counts. -/
theorem WellFormed.bytes_sweep (wellFormed : directory.WellFormed) {dead : List Handle}
    {tally : Tally} (ran : directory.sweep dead = .ok (tally, after)) :
    after.bytes + tally.bytes = directory.bytes := by
  refine (sweep_induction (fun _ tally current =>
    current.WellFormed ∧ current.bytes + tally.bytes = directory.bytes)
    ran ⟨wellFormed, rfl⟩ (fun _ _ _ _ holds _ => holds) ?_).2
  intro _ handle tally current record holds found _
  obtain ⟨currentFormed, counted⟩ := holds
  have taken := currentFormed.bytes_vacated found
  refine ⟨currentFormed.vacated found, ?_⟩
  dsimp only
  omega

end Tenure.Directory
