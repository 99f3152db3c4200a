import Tenure.Proofs.Directory.Slots

/-!
# Epochs of slots

An occupied slot is given back at most once in a cycle, and only that advances its
epoch. So the epoch of a slot counts how often it was reclaimed.
-/

set_option autoImplicit false

namespace Tenure.Directory

/-- The epoch of a slot, and whether there is an object in it. -/
def occupancy (directory : Directory) (index : Nat) : Option (UInt32 × Bool) :=
  directory.entries[index]?.map fun entry => (entry.epoch, entry.record.isSome)

theorem isLive_iff_occupancy {directory : Directory} {handle : Handle} :
    directory.isLive handle = true ↔
      directory.occupancy handle.slot.toNat = some (handle.epoch, true) := by
  rw [isLive_iff]
  unfold occupancy get?
  cases directory.entries[handle.slot.toNat]? with
  | none => simp
  | some entry =>
      by_cases same : entry.epoch = handle.epoch
      · simp [same, Option.isSome_iff_exists]
      · simp [same]

@[simp] theorem occupancy_update (directory : Directory) (handle : Handle)
    (change : Record → Record) :
    (directory.update handle change).occupancy = directory.occupancy := by
  funext index
  unfold occupancy update
  split
  · simp only [Array.getElem?_modify]
    split
    · rename_i same
      rw [Option.map_map]
      congr 1
      funext entry
      simp
    · rfl
  · rfl

@[simp] theorem occupancy_follow (directory : Directory) (moves : List Relocation) :
    (directory.follow moves).occupancy = directory.occupancy := by
  unfold follow
  induction moves generalizing directory with
  | nil => rfl
  | cons move rest ih => rw [List.foldl_cons, ih, occupancy_update]

/-- Every slot either stays as it is or is reclaimed once. -/
def Turns (before after : Directory) : Prop :=
  ∀ index epoch occupied, before.occupancy index = some (epoch, occupied) →
    after.occupancy index = some (epoch, occupied) ∨
      (occupied = true ∧ after.occupancy index = some (epoch + 1, false))

theorem Turns.of_occupancy {before after : Directory}
    (same : after.occupancy = before.occupancy) : before.Turns after :=
  fun index _ _ known => .inl ((congrFun same index).trans known)

theorem Turns.trans {before middle after : Directory} (first : before.Turns middle)
    (second : middle.Turns after) : before.Turns after := by
  intro index epoch occupied known
  rcases first index epoch occupied known with kept | ⟨full, turned⟩
  · exact second index epoch occupied kept
  · -- A slot that was reclaimed is empty, so it is not reclaimed again.
    rcases second index (epoch + 1) false turned with kept | ⟨full, _⟩
    · exact .inr ⟨full, kept⟩
    · simp at full

theorem turns_vacated {directory : Directory} {handle : Handle} {record : Record}
    (found : directory.get? handle = some record) :
    directory.Turns (directory.vacated handle) := by
  have entry := get?_eq_some_iff.mp found
  intro index epoch occupied known
  unfold occupancy at known ⊢
  simp only [vacated, Array.getElem?_modify]
  by_cases same : handle.slot.toNat = index
  · subst same
    rw [entry, Option.map_some, Option.some.injEq, Prod.mk.injEq] at known
    obtain ⟨rfl, rfl⟩ := known
    right
    simp [entry]
  · left
    rw [if_neg same]
    exact known

theorem turns_sweep {directory after : Directory} {dead : List Handle} {tally : Tally}
    (ran : directory.sweep dead = .ok (tally, after)) : directory.Turns after := by
  refine sweep_induction (fun _ _ current => directory.Turns current) ran (.of_occupancy rfl)
    (fun _ _ _ _ turns _ => turns) ?_
  intro _ _ _ _ _ turns found _
  exact turns.trans (turns_vacated found)

/-! ## Counting reclaimed slots -/

def reclaims (before after : Directory) (slot : UInt32) : Bool :=
  before.handles.any fun handle => handle.slot = slot && !after.isLive handle

/-- A cycle advances the epoch of a slot exactly if it reclaims the object in it. -/
theorem Turns.occupancy_eq {before after : Directory} (turns : before.Turns after)
    (wellFormed : before.WellFormed) {slot epoch : UInt32} {occupied : Bool}
    (known : before.occupancy slot.toNat = some (epoch, occupied)) :
    after.occupancy slot.toNat =
      if before.reclaims after slot then some (epoch + 1, false) else some (epoch, occupied) := by
  have reclaimed_iff : before.reclaims after slot = true ↔
      occupied = true ∧ after.occupancy slot.toNat ≠ some (epoch, true) := by
    rw [reclaims, List.any_eq_true]
    constructor
    · intro reclaimed
      obtain ⟨⟨_, other⟩, member, gone⟩ := reclaimed
      rw [wellFormed.mem_handles, isLive_iff_occupancy] at member
      simp only [Bool.and_eq_true, decide_eq_true_eq, Bool.not_eq_true',
        Bool.eq_false_iff, ne_eq, isLive_iff_occupancy] at gone
      obtain ⟨rfl, gone⟩ := gone
      rw [known, Option.some.injEq, Prod.mk.injEq] at member
      obtain ⟨rfl, rfl⟩ := member
      exact ⟨rfl, gone⟩
    · intro vacated
      obtain ⟨rfl, gone⟩ := vacated
      refine ⟨{ slot, epoch }, ?_, ?_⟩
      · rw [wellFormed.mem_handles, isLive_iff_occupancy]
        exact known
      · simpa [Bool.eq_false_iff, isLive_iff_occupancy] using gone
  rcases turns slot.toNat epoch occupied known with kept | ⟨full, turned⟩
  · rw [if_neg, kept]
    rw [reclaimed_iff]
    intro vacated
    obtain ⟨rfl, gone⟩ := vacated
    exact gone kept
  · rw [if_pos, turned]
    rw [reclaimed_iff, turned]
    exact ⟨full, by simp⟩

/-! ## New objects -/

/-- A new handle has the epoch of its slot, which was free or did not exist. -/
theorem WellFormed.occupancy_fresh {directory : Directory} (wellFormed : directory.WellFormed)
    {handle : Handle} (fresh : directory.fresh? = some handle) :
    directory.occupancy handle.slot.toNat = some (handle.epoch, false) ∨
      directory.occupancy handle.slot.toNat = none := by
  cases fresh?_eq_some fresh with
  | reused free found epoch =>
      obtain ⟨vacantEpoch, vacant⟩ := (wellFormed.mem_free handle.slot).mp (by simp [free])
      rw [vacant, Option.some.injEq] at found
      subst found
      exact .inl (by simp [occupancy, vacant, ← epoch])
  | added _ slot _ _ => exact .inr (by simp [occupancy, slot])

/-- A new handle was not live before the objects that left their slots did so. -/
theorem Turns.not_live_of_fresh {before after : Directory} (turns : before.Turns after)
    (wellFormed : after.WellFormed) {handle : Handle} (fresh : after.fresh? = some handle) :
    before.isLive handle = false := by
  rw [Bool.eq_false_iff, ne_eq, isLive_iff_occupancy]
  intro known
  rcases wellFormed.occupancy_fresh fresh with vacant | missing
  · rcases turns handle.slot.toNat handle.epoch true known with kept | ⟨_, turned⟩
    · simp [vacant] at kept
    · simp [vacant] at turned
  · rcases turns handle.slot.toNat handle.epoch true known with kept | ⟨_, turned⟩
    · simp [missing] at kept
    · simp [missing] at turned

theorem occupancy_insert {directory : Directory} (record : Record) {slot epoch : UInt32}
    {occupied : Bool}
    (known : directory.occupancy slot.toNat = some (epoch, occupied)) :
    ∃ still, (directory.insert record).occupancy slot.toNat = some (epoch, still) ∧
      (occupied = true → still = true) := by
  unfold insert
  cases free : directory.free with
  | cons first rest =>
      simp only [occupancy, Array.getElem?_modify]
      unfold occupancy at known
      by_cases same : first.toNat = slot.toNat
      · obtain ⟨entry, found, shape⟩ := Option.map_eq_some_iff.mp known
        rw [Prod.mk.injEq] at shape
        refine ⟨true, ?_, fun _ => rfl⟩
        rw [if_pos same, found, Option.map_some, Option.map_some, shape.1]
        rfl
      · rw [if_neg same]
        exact ⟨occupied, known, id⟩
  | nil =>
      have inside : slot.toNat < directory.entries.size := by
        rcases Nat.lt_or_ge slot.toNat directory.entries.size with inside | outside
        · exact inside
        · simp [occupancy, Array.getElem?_eq_none outside] at known
      refine ⟨occupied, ?_, id⟩
      simp only [occupancy, Array.getElem?_push]
      rw [if_neg (Nat.ne_of_lt inside)]
      exact known

/-! ## Reuse -/

/-- Between two directories a slot was reclaimed so often, and its epoch tells it. An
object in a slot that was not reclaimed is still there. -/
def Recycles (before : Directory) (slot : UInt32) (times : Nat) (after : Directory) : Prop :=
  ∀ epoch occupied, before.occupancy slot.toNat = some (epoch, occupied) →
    ∃ still, after.occupancy slot.toNat = some (epoch + UInt32.ofNat times, still) ∧
      (times = 0 → occupied = true → still = true)

theorem Turns.recycles {before after : Directory} (turns : before.Turns after)
    (wellFormed : before.WellFormed) (slot : UInt32) :
    before.Recycles slot (if before.reclaims after slot then 1 else 0) after := by
  intro epoch occupied known
  have turned := turns.occupancy_eq wellFormed known
  by_cases reclaimed : before.reclaims after slot = true
  · rw [if_pos reclaimed] at turned ⊢
    exact ⟨false, turned, fun none => absurd none Nat.one_ne_zero⟩
  · rw [if_neg reclaimed] at turned ⊢
    exact ⟨occupied, turned.trans (by simp), fun _ => id⟩

theorem recycles_insert (directory : Directory) (record : Record) (slot : UInt32) :
    directory.Recycles slot 0 (directory.insert record) := by
  intro epoch occupied known
  obtain ⟨still, found, kept⟩ := occupancy_insert record known
  exact ⟨still, found.trans (by simp), fun _ => kept⟩

/-- A new object takes no other object's slot. -/
theorem reclaims_insert {directory : Directory} (wellFormed : directory.WellFormed)
    (record : Record) (slot : UInt32) :
    directory.reclaims (directory.insert record) slot = false := by
  rw [Bool.eq_false_iff, ne_eq, reclaims, List.any_eq_true]
  intro reclaimed
  obtain ⟨handle, member, gone⟩ := reclaimed
  rw [wellFormed.mem_handles, isLive_iff_occupancy] at member
  obtain ⟨still, found, kept⟩ := occupancy_insert record member
  rw [kept rfl] at found
  simp [isLive_iff_occupancy.mpr found] at gone

namespace Recycles

variable {before middle after : Directory} {slot : UInt32} {times earlier later : Nat}

theorem refl (directory : Directory) (slot : UInt32) : directory.Recycles slot 0 directory :=
  fun _ occupied known => ⟨occupied, known.trans (by simp), fun _ => id⟩

theorem trans (first : before.Recycles slot earlier middle)
    (second : middle.Recycles slot later after) :
    before.Recycles slot (earlier + later) after := by
  intro epoch occupied known
  obtain ⟨between, found, kept⟩ := first epoch occupied known
  obtain ⟨still, foundAfter, keptAfter⟩ := second _ between found
  refine ⟨still, ?_, fun none full => ?_⟩
  · rw [foundAfter, UInt32.ofNat_add, UInt32.add_assoc]
  · obtain ⟨noneEarlier, noneLater⟩ := Nat.add_eq_zero_iff.mp none
    exact keptAfter noneLater (kept noneEarlier full)

/-- A slot that is reclaimed fewer than 2³² times comes back to an epoch only if it is
not reclaimed at all. -/
theorem of_same_epoch {handle : Handle} (recycles : before.Recycles handle.slot times after)
    (live : before.isLive handle = true) (rare : times < UInt32.size) {occupied : Bool}
    (again : after.occupancy handle.slot.toNat = some (handle.epoch, occupied)) :
    times = 0 ∧ occupied = true := by
  obtain ⟨still, found, kept⟩ := recycles _ _ (isLive_iff_occupancy.mp live)
  rw [found, Option.some.injEq, Prod.mk.injEq] at again
  obtain ⟨same, rfl⟩ := again
  have none : times = 0 := by
    have zero := congrArg UInt32.toNat (UInt32.add_eq_left.mp same)
    rwa [UInt32.toNat_ofNat_of_lt' rare] at zero
  exact ⟨none, kept none rfl⟩

theorem pos_of_reclaimed {handle : Handle} (recycles : before.Recycles handle.slot times after)
    (live : before.isLive handle = true) (reclaimed : after.isLive handle = false) :
    0 < times := by
  cases times with
  | succ _ => exact Nat.succ_pos _
  | zero =>
      obtain ⟨still, found, kept⟩ := recycles _ _ (isLive_iff_occupancy.mp live)
      rw [kept rfl rfl] at found
      rw [isLive_iff_occupancy.mpr (found.trans (by simp))] at reclaimed
      cases reclaimed

/-- The handle of a reclaimed object stays stale. -/
theorem not_live_again {handle : Handle} (first : before.Recycles handle.slot earlier middle)
    (second : middle.Recycles handle.slot later after) (rare : earlier + later < UInt32.size)
    (live : before.isLive handle = true) (reclaimed : middle.isLive handle = false) :
    after.isLive handle = false := by
  have some := first.pos_of_reclaimed live reclaimed
  cases again : after.isLive handle with
  | false => rfl
  | true =>
      have none := ((first.trans second).of_same_epoch live rare
        (isLive_iff_occupancy.mp again)).1
      omega

/-- The handle of an object that was live once is not handed out again. -/
theorem not_fresh {handle : Handle} (recycles : before.Recycles handle.slot times after)
    (wellFormed : after.WellFormed) (live : before.isLive handle = true)
    (rare : times < UInt32.size) : after.fresh? ≠ some handle := by
  intro fresh
  rcases wellFormed.occupancy_fresh fresh with vacant | missing
  · cases (recycles.of_same_epoch live rare vacant).2
  · obtain ⟨_, found, _⟩ := recycles _ _ (isLive_iff_occupancy.mp live)
    rw [missing] at found
    cases found

end Recycles

end Tenure.Directory
