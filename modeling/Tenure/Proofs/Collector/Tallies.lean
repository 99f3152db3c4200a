import Tenure.Proofs.Collector.Totality

/-!
# What the counters of a collector say of each other

As long as the listeners ask for nothing, the counters of a collector follow the cycles that
it ran: each cycle has a number, each minor one fails at most one promotion, changes the
threshold at most once and asks for at most three major ones, and no object is promoted
twice. So bounds on the cycles and on the objects leave room in all counters.
-/

set_option autoImplicit false

namespace Tenure

/-! ## Requests -/

@[simp] theorem Requests.dropped_set (requests : Requests) (kind : CycleKind) (waits : Bool) :
    (requests.set kind waits).dropped = requests.dropped := by
  cases kind with
  | minor => rfl
  | major => rfl

@[simp] theorem Requests.dropped_clear (requests : Requests) (kind : CycleKind) :
    (requests.clear kind).dropped = requests.dropped :=
  requests.dropped_set kind false

namespace Collector

variable {Source Policy Hearer : Type} {collector after : Collector Source Policy Hearer}

section Quiet

variable [Listener Hearer]

/-- The announcement of a cycle to quiet listeners asks for nothing. -/
theorem enter_of_quiet (quiet : Quiet collector.hearer) {kind : CycleKind}
    (ran : collector.enter kind = .ok after) : ∃ hearer, Quiet hearer ∧ after =
      { collector with
        hearer
        requests := collector.requests.clear kind
        cycle := collector.cycle + 1
        phase := .during kind } := by
  obtain ⟨_, _, requests, asked, rfl⟩ := enter_eq_ok ran
  rw [quiet.wanted] at asked
  cases asked
  exact ⟨_, quiet.next _ _, rfl⟩

theorem conclude_of_quiet (quiet : Quiet collector.hearer) {report : CycleReport}
    (ran : collector.conclude report = .ok after) : ∃ totals hearer, Quiet hearer ∧
      collector.totals.record report = .ok totals ∧
        after = { collector with totals, hearer } := by
  obtain ⟨totals, requests, recorded, asked, rfl⟩ := conclude_eq_ok ran
  rw [quiet.wanted] at asked
  cases asked
  exact ⟨totals, _, quiet.next _ _, recorded, rfl⟩

end Quiet

/-! ## Counters -/

/-- The counters agree with the numbers of cycles and of objects. -/
structure Tallied (collector : Collector Source Policy Hearer) : Prop where
  cycle_eq : collector.cycle = collector.totals.minorCycles + collector.totals.majorCycles
  minorsSinceMajor_le : collector.minorsSinceMajor ≤ collector.totals.minorCycles
  promotionFailures_le : collector.totals.promotionFailures ≤ collector.totals.minorCycles
  thresholdChanges_le : collector.totals.thresholdChanges ≤ collector.totals.minorCycles
  dropped_le : collector.requests.dropped ≤ 3 * collector.totals.minorCycles
  promoted_le : collector.totals.objectsPromoted + collector.heap.directory.youngs.length ≤
    collector.heap.directory.live + collector.totals.objectsReclaimed

theorem tallied_ofHeap {heap : Heap Source} (sound : heap.Sound) (policy : Policy)
    (hearer : Hearer) : (ofHeap heap policy hearer).Tallied := by
  constructor
  case promoted_le =>
    have young := sound.consistent.directory.length_youngs_le
    exact (Nat.zero_add _).trans_le young
  case cycle_eq => rfl
  all_goals exact Nat.le_refl 0

namespace Tallied

variable {heap : Heap Source}

theorem queued (tallied : collector.Tallied) {requests : Requests}
    (same : requests.dropped = collector.requests.dropped) :
    Tallied { collector with requests } :=
  { tallied with dropped_le := same.trans_le tallied.dropped_le }

theorem placed (tallied : collector.Tallied) (consistent : collector.heap.Consistent)
    {handle : Handle} (fresh : collector.heap.directory.fresh? = some handle)
    (size fieldCount : Nat) :
    Tallied { collector with heap := collector.heap.withNew handle size fieldCount } := by
  have live : (collector.heap.withNew handle size fieldCount).directory.live =
      collector.heap.directory.live + 1 := Directory.live_insert _ _
  have young := consistent.youngs_withNew fresh size fieldCount
  have promoted := tallied.promoted_le
  exact { tallied with promoted_le := by dsimp only; omega }

theorem stored (tallied : collector.Tallied) (sound : collector.heap.Sound) {holder : Handle}
    {index : Nat} {value : Option Handle} {answer : Answer Unit}
    (ran : collector.heap.store holder index value = .ok (answer, heap)) :
    Tallied { collector with heap } := by
  have live := (sound.counts_of_store ran).objects
  have young := sound.youngs_of_store ran
  have promoted := tallied.promoted_le
  exact { tallied with promoted_le := by dsimp only; omega }

variable [MemorySource Source] [Listener Hearer] {Roots : Type} [RootProvider Roots]
  {roots : Roots} {answer : Answer CycleReport}

theorem collectMajor (tallied : collector.Tallied) (silent : Silent Hearer)
    (sound : collector.heap.Sound) (healthy : collector.poison = none)
    (ran : collector.collectMajor roots = .ok (answer, after)) :
    after.Tallied ∧ after.requests = collector.requests.clear .major := by
  obtain ⟨_, outcome, heap, _, _, enter, cycle, conclude, _, rfl⟩ :=
    collectMajor_stages (checkPoison_eq_ok_iff.mpr healthy) ran
  obtain ⟨_, _, rfl⟩ := enter_of_quiet (silent.quiet _) enter
  obtain ⟨totals, _, _, recorded, rfl⟩ := conclude_of_quiet (silent.quiet _) conclude
  obtain ⟨counts, promoted, changes, _⟩ := Totals.record_eq_ok recorded
  obtain ⟨minors, majors, reclaimed, _, failures, _⟩ := counts
  simp only [MajorOutcome.report, reduceCtorEq, ↓reduceIte, Nat.add_zero, Bool.toNat_false]
    at minors majors reclaimed failures promoted
  have live := (sound.reclaims_of_majorCycle cycle).objects
  have young := sound.youngs_of_majorCycle cycle
  obtain ⟨cycles, _, failed, changed, dropped, promotions⟩ := tallied
  refine ⟨?_, rfl⟩
  exact
    { cycle_eq := by dsimp only; omega
      minorsSinceMajor_le := Nat.zero_le _
      promotionFailures_le := by dsimp only; omega
      thresholdChanges_le := by dsimp only at changes ⊢; omega
      dropped_le := by rw [minors, Requests.dropped_clear]; exact dropped
      promoted_le := by dsimp only; omega }

theorem collectMinor [PromotionPolicy Policy] (tallied : collector.Tallied)
    (silent : Silent Hearer) (sound : collector.heap.Sound) (healthy : collector.poison = none)
    (ran : collector.collectMinor roots = .ok (answer, after)) :
    after.Tallied ∧ after.requests.minor = false := by
  obtain ⟨_, outcome, heap, _, _, _, enter, cycle, conclude, tune, check, _⟩ :=
    collectMinor_stages (checkPoison_eq_ok_iff.mpr healthy) ran
  obtain ⟨_, _, rfl⟩ := enter_of_quiet (silent.quiet _) enter
  obtain ⟨totals, _, _, recorded, rfl⟩ := conclude_of_quiet (silent.quiet _) conclude
  obtain ⟨_, threshold, _, changes, rfl⟩ := tune_eq_ok tune
  obtain ⟨requests, ⟨minor, _, asked⟩, rfl⟩ := checkTriggers_eq_ok check
  obtain ⟨counts, promoted, unchanged, _⟩ := Totals.record_eq_ok recorded
  obtain ⟨minors, majors, reclaimed, _, failures, _⟩ := counts
  simp only [MinorOutcome.report, reduceCtorEq, ↓reduceIte, Nat.add_zero, Bool.toNat_false]
    at minors majors reclaimed failures promoted
  have live := (sound.reclaims_of_minorCycle cycle).objects
  have young := sound.youngs_of_minorCycle cycle
  have failing := Bool.toNat_le outcome.promotionFailed
  obtain ⟨cycles, since, failed, changed, dropped, promotions⟩ := tallied
  refine ⟨?_, minor⟩
  exact
    { cycle_eq := by dsimp only; omega
      minorsSinceMajor_le := by dsimp only; omega
      promotionFailures_le := by dsimp only; omega
      thresholdChanges_le := by dsimp only at changes unchanged ⊢; omega
      dropped_le := by
        rw [Requests.dropped_clear] at asked
        dsimp only [reasons, List.length] at asked ⊢
        omega
      promoted_le := by
        dsimp only
        rw [heap.directory_setThreshold]
        omega }

end Tallied

/-- The counters have room for cycles if the numbers that they follow leave it. -/
theorem Tallied.hasRoomFor [Listener Hearer] {collector : Collector WindowedMemory Policy Hearer}
    (tallied : collector.Tallied) (silent : Silent Hearer) {kinds : List CycleKind}
    (cycles : collector.totals.minorCycles + collector.totals.majorCycles + kinds.length <
      Word.limit)
    (minors : 3 * (collector.totals.minorCycles + kinds.count .minor) < Word.limit)
    (objects : collector.heap.directory.live + collector.totals.objectsReclaimed +
      kinds.count .minor * collector.heap.directory.live < Word.limit)
    (bytes : collector.heap.directory.bytes + collector.totals.bytesReclaimed < Word.limit)
    (givesUp : collector.totals.allocationFailures + 1 < Word.limit)
    (fieldCount : collector.heap.directory.fieldCount < Word.limit) :
    collector.HasRoomFor kinds := by
  have counted : ∀ kind, kinds.count kind ≤ kinds.length := fun _ => List.count_le_length
  have minorCount := counted .minor
  have majorCount := counted .major
  obtain ⟨numbered, since, failed, changed, dropped, promoted⟩ := tallied
  exact
    { cycle := by omega
      minorsSinceMajor := by omega
      totals :=
        { minorCycles := by omega
          majorCycles := by omega
          bytesReclaimed := by omega
          objectsReclaimed := by omega
          objectsPromoted := by omega
          promotionFailures := by omega
          thresholdChanges := by omega
          allocationFailures := givesUp }
      fieldCount
      hears := fun heard _ => by
        rw [silent.wishes_eq]
        omega }

/-- The counters of a new collector have room for the cycles of an allocation. -/
theorem hasRoomFor_ofHeap [Listener Hearer] {settings : Settings} {budget : Option Nat}
    {heap : Heap WindowedMemory}
    (created : (Heap.create settings (WindowedMemory.fresh budget)).run = .ok (.ok heap))
    (policy : Policy) (hearer : Hearer) (silent : Silent Hearer) :
    (ofHeap heap policy hearer).HasRoomFor [.minor, .major] := by
  have tallied := tallied_ofHeap (Heap.sound_of_create created) policy hearer
  obtain ⟨_, empty, _⟩ := Heap.create_eq_ok created
  have directory : (ofHeap heap policy hearer).heap.directory = .empty := empty
  have totals : (ofHeap heap policy hearer).totals = {} := rfl
  apply tallied.hasRoomFor silent
  all_goals
    simp only [directory, totals]
    decide

namespace HasRoomFor

variable [Listener Hearer] {collector : Collector WindowedMemory Policy Hearer}

theorem tail {kind : CycleKind} {kinds : List CycleKind}
    (room : collector.HasRoomFor (kind :: kinds)) : collector.HasRoomFor kinds := by
  have fewer : ∀ other, kinds.count other ≤ (kind :: kinds).count other :=
    fun _ => List.count_le_count_cons
  have fewerMinors := fewer .minor
  have fewerMajors := fewer .major
  have promotions := Nat.mul_le_mul_right collector.heap.directory.live fewerMinors
  obtain ⟨cycles, minors, totals, fieldCount, hears⟩ := room
  obtain ⟨minorCycles, majorCycles, bytes, objects, promoted, failures, changes, givesUp⟩ := totals
  rw [List.length_cons] at cycles hears
  exact
    { cycle := by omega
      minorsSinceMajor := by omega
      totals :=
        { minorCycles := by omega
          majorCycles := by omega
          bytesReclaimed := bytes
          objectsReclaimed := objects
          objectsPromoted := by omega
          promotionFailures := by omega
          thresholdChanges := by omega
          allocationFailures := givesUp }
      fieldCount
      hears := hears.mono (by omega) (by omega) }

end HasRoomFor

/-! ## Allocations -/

namespace Ladder

variable [Listener Hearer] [PromotionPolicy Policy] {Roots : Type} [RootProvider Roots]
  {collector last : Collector WindowedMemory Policy Hearer} {roots : Roots} {rounded : Nat}
  {kinds : List CycleKind}

theorem count_le (ladder : collector.Ladder roots rounded kinds last) (kind : CycleKind) :
    kinds.count kind ≤ 1 := by
  cases ladder with
  | unneeded _ => exact Nat.zero_le 1
  | minor _ _ _ => cases kind <;> decide
  | major _ _ _ _ => cases kind <;> decide

theorem tallied (ladder : collector.Ladder roots rounded kinds last) (silent : Silent Hearer)
    (rests : collector.Rests) (tallied : collector.Tallied)
    (unasked : collector.requests.minor = false) :
    last.Tallied ∧ last.requests.minor = false := by
  cases ladder with
  | unneeded _ => exact ⟨tallied, unasked⟩
  | minor _ minor _ =>
      exact tallied.collectMinor silent rests.ready.sound rests.healthy minor
  | major _ minor _ major =>
      have cleared := (cycled_of_collectMinor rests minor).1.rests
      obtain ⟨middle, asked⟩ :=
        tallied.collectMinor silent rests.ready.sound rests.healthy minor
      obtain ⟨last, same⟩ := middle.collectMajor silent cleared.ready.sound cleared.healthy major
      refine ⟨last, ?_⟩
      rw [same]
      exact asked

end Ladder

end Collector

end Tenure
