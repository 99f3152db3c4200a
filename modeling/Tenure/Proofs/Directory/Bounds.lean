import Tenure.Proofs.Directory.Places
import Tenure.Proofs.Graph

/-!
# What the objects of a directory take together

The storage of objects and their references are sums over handles. Bounds on these sums
keep the counters of a sweep inside the words, and a bound on the number of objects leaves
a slot for the next one.
-/

set_option autoImplicit false

namespace Tenure

/-- The bytes that objects take together. -/
def Directory.storage (directory : Directory) (handles : List Handle) : Nat :=
  (handles.map directory.sizeOf).sum

namespace Directory

variable {directory : Directory}

@[simp] theorem storage_nil : directory.storage [] = 0 := rfl

@[simp] theorem storage_append (left right : List Handle) :
    directory.storage (left ++ right) = directory.storage left + directory.storage right := by
  rw [storage, List.map_append, List.sum_append, storage, storage]

@[simp] theorem storage_cons (handle : Handle) (rest : List Handle) :
    directory.storage (handle :: rest) = directory.sizeOf handle + directory.storage rest := by
  rw [storage, List.map_cons, List.sum_cons, storage]

theorem sizeOf_of_get? {handle : Handle} {record : Record}
    (found : directory.get? handle = some record) : directory.sizeOf handle = record.size := by
  rw [sizeOf, found]

theorem storage_residents {residents : List Resident}
    (sized : ∀ resident ∈ residents, directory.sizeOf resident.handle = resident.size) :
    directory.storage (residents.map Resident.handle) = extentOf residents := by
  induction residents with
  | nil => rfl
  | cons resident rest ih =>
      rw [List.map_cons, storage_cons, extentOf_cons, sized resident List.mem_cons_self]
      rw [ih fun other member => sized other (List.mem_cons_of_mem resident member)]

/-! ## References -/
/-- The reference fields of all live objects, null or not. -/
def fieldCount (directory : Directory) : Nat :=
  (directory.handles.map fun handle => (directory.graph handle).length).sum

theorem references_filter_isLive (handles : List Handle) :
    directory.graph.references (handles.filter directory.isLive) =
      directory.graph.references handles := by
  induction handles with
  | nil => rfl
  | cons handle rest ih =>
      have split := directory.graph.references_append [handle] rest
      rw [List.singleton_append] at split
      rw [split, ← ih, List.filter_cons]
      cases live : directory.isLive handle with
      | true => exact directory.graph.references_append [handle] _
      | false =>
          have unknown := isLive_eq_false_iff.mp live
          simp [Graph.references, Graph.targets, graph, unknown]

theorem WellFormed.references_le (wellFormed : directory.WellFormed) {handles : List Handle}
    (distinct : handles.Nodup) : directory.graph.references handles ≤ directory.fieldCount := by
  have listed : handles.filter directory.isLive ⊆ directory.handles := fun handle member =>
    wellFormed.mem_handles.mpr (List.mem_filter.mp member).2
  rw [← references_filter_isLive]
  exact Handle.sum_le_of_subset (fun handle => List.length_filterMap_le _ _)
    (distinct.filter _) listed

/-! ## Slots -/

theorem WellFormed.live_eq_size (wellFormed : directory.WellFormed)
    (occupied : directory.free = []) : directory.live = directory.entries.size := by
  rw [wellFormed.live_eq, ← Array.length_toList, List.countP_eq_length]
  intro entry member
  obtain ⟨index, found⟩ := List.mem_iff_getElem?.mp member
  cases content : entry.record with
  | some record => rfl
  | none =>
      have vacant : directory.entries[index]? = some { epoch := entry.epoch, record := none } := by
        rw [← Array.getElem?_toList, found, ← content]
      obtain ⟨slot, listed, _⟩ := wellFormed.exists_free_iff.mpr ⟨_, vacant⟩
      rw [occupied] at listed
      cases listed

theorem WellFormed.exists_fresh (wellFormed : directory.WellFormed)
    (few : directory.live < slotLimit) : ∃ handle, directory.fresh? = some handle := by
  unfold fresh?
  cases free : directory.free with
  | nil =>
      rw [wellFormed.live_eq_size free] at few
      exact ⟨_, if_pos few⟩
  | cons slot rest =>
      obtain ⟨epoch, vacant⟩ := (wellFormed.mem_free slot).mp (by simp [free])
      simp only [vacant]
      exact ⟨_, rfl⟩

/-! ## Sweeps -/

theorem WellFormed.answers_release (wellFormed : directory.WellFormed) (handle : Handle) :
    Checked.Answers (directory.release handle) := by
  unfold release
  cases found : directory.get? handle with
  | none => exact Checked.answers_pure _
  | some record =>
      have positive := live_pos_of_get? wellFormed found
      exact Checked.Answers.bind ⟨_, Word.sub_of_le positive⟩ fun _ _ => Checked.answers_pure _

/-- The reclaimed bytes are counted without a trap, if each object is named once. -/
theorem WellFormed.answers_sweep (wellFormed : directory.WellFormed) {dead : List Handle}
    (distinct : dead.Nodup) (fits : directory.storage dead < Word.limit) :
    Checked.Answers (directory.sweep dead) := by
  have unseen : ∀ {seen handle rest}, dead = seen ++ handle :: rest → handle ∉ seen := by
    intro seen handle rest split early
    rw [split, List.nodup_append] at distinct
    exact distinct.2.2 handle early handle List.mem_cons_self rfl
  refine Checked.answers_foldlM (fun seen (state : Tally × Directory) =>
    state.2.WellFormed ∧ state.1.bytes ≤ directory.storage seen ∧
      ∀ handle, handle ∉ seen → state.2.get? handle = directory.get? handle)
    ⟨wellFormed, Nat.le_refl 0, fun _ _ => rfl⟩ ?_ ?_
  · rintro seen handle rest ⟨tally, current⟩ split ⟨currentFormed, counted, waiting⟩
    refine (currentFormed.answers_release handle).bind fun result released => ?_
    obtain ⟨answer, next⟩ := result
    rcases release_eq_ok released with ⟨rfl, _⟩ | ⟨record, rfl, found, _⟩
    · exact Checked.answers_pure _
    · have size := sizeOf_of_get? ((waiting handle (unseen split)).symm.trans found)
      have room : tally.bytes + record.size < Word.limit := by
        rw [split, storage_append, storage_cons, size] at fits
        dsimp only at counted
        omega
      exact Checked.Answers.bind ⟨_, Word.add_of_lt room⟩ fun _ _ => Checked.answers_pure _
  · rintro seen handle rest ⟨tally, current⟩ after split ⟨currentFormed, counted, waiting⟩ stepped
    simp only [Checked.bind_eq_ok_iff] at stepped
    obtain ⟨⟨answer, released⟩, release, answered⟩ := stepped
    have later : ∀ other, other ∉ seen ++ [handle] → other ∉ seen ∧ other ≠ handle := by simp
    rw [storage_append, storage_cons, storage_nil]
    rcases release_eq_ok release with ⟨rfl, _, rfl⟩ | ⟨record, rfl, found, _, rfl⟩
    · simp only [Checked.pure_eq_ok_iff] at answered
      subst answered
      exact ⟨currentFormed, Nat.le_add_right_of_le counted,
        fun other unlisted => waiting other (later other unlisted).1⟩
    · simp only [Checked.bind_eq_ok_iff, Word.add_eq_ok_iff, Checked.pure_eq_ok_iff] at answered
      obtain ⟨bytes, ⟨_, rfl⟩, rfl⟩ := answered
      have size := sizeOf_of_get? ((waiting handle (unseen split)).symm.trans found)
      refine ⟨currentFormed.vacated found, ?_, fun other unlisted => ?_⟩
      · rw [size]
        exact Nat.add_le_add_right counted record.size
      · obtain ⟨unlisted, different⟩ := later other unlisted
        rw [get?_vacated found, if_neg different]
        exact waiting other unlisted

end Directory

end Tenure
