import Tenure.Proofs.Collector.History
import Tenure.Proofs.Collector.Reachable

/-!
# The ladder of an allocation

An allocation runs no cycle if eden has room on entry. Otherwise it runs one minor cycle,
and one major cycle if there is no room still. It places the object exactly if eden has room
then. What the roots lead to is kept, and if eden could hold the object at all, a failed
promotion is to blame for the lack of room.
-/

set_option autoImplicit false

namespace Tenure

/-- The bytes above the frontier. -/
def Arena.spare (arena : Arena) : Nat := arena.capacity - arena.used

theorem Arena.free_eq_ok_iff {arena : Arena} {left : Nat} :
    arena.free = .ok left ↔ arena.used ≤ arena.capacity ∧ left = arena.spare :=
  Word.sub_eq_ok_iff

theorem Arena.spare_of_empty {arena : Arena} (wellFormed : arena.WellFormed)
    (empty : arena.residents = #[]) : arena.spare = arena.capacity := by
  have used := wellFormed.used_eq
  rw [empty] at used
  rw [spare, used]
  rfl

namespace Heap

variable {heap after : Heap WindowedMemory} {size fieldCount : Nat}

theorem Ready.wellFormed (ready : heap.Ready) (space : Space) : (heap.arena space).WellFormed :=
  (ready.sound.consistent.fills space).wellFormed

/-- Nothing but room in eden decides about an allocation. -/
theorem Ready.placed_iff (ready : heap.Ready) {placed : Option Handle}
    (ran : heap.tryAllocate size fieldCount = .ok (placed, after)) :
    placed.isSome = true ↔ roundedSize size ≤ heap.eden.spare := by
  have inside := (ready.wellFormed .eden).used_le
  simp only [arena] at inside
  cases placed with
  | some handle =>
      rcases tryAllocate_eq_ok ran with ⟨unplaced, _⟩ | ⟨_, room, _, _, aligned, fits, _⟩
      · cases unplaced
      · obtain ⟨_, rfl⟩ := alignSize_eq_ok_iff.mp aligned
        simp only [Option.isSome_some, Arena.spare, true_iff]
        omega
  | none =>
      obtain ⟨room, aligned, exceeds⟩ :=
        crowded_of_unplaced ready.sound.consistent ready.addressable ran
      obtain ⟨_, rfl⟩ := alignSize_eq_ok_iff.mp aligned
      simp only [Option.isSome_none, Arena.spare, Bool.false_eq_true, false_iff]
      omega

/-- A minor cycle empties eden unless a promotion fails. -/
theorem Ready.eden_of_minorCycle (ready : heap.Ready) {marker next : Marker}
    {roots : List Handle} {outcome : MinorOutcome}
    (ran : heap.minorCycle marker roots = .ok (.ok outcome, after, next)) :
    after.eden.capacity = heap.eden.capacity ∧
      (outcome.promotionFailed = false → after.eden.spare = after.eden.capacity) := by
  obtain ⟨_, answered, stages, run, reports⟩ := minorCycle_reports ran
  cases answered
  have consistent := ready.sound.consistent
  refine ⟨?_, fun promoted => ?_⟩
  · rw [run.eden_after consistent, Arena.capacity_slid]
  · exact Arena.spare_of_empty ((run.consistent_after consistent).fills .eden).wellFormed
      ((run.vacates consistent ready.rotating reports).cleared_of_promoted promoted)

end Heap

namespace Collector

variable {Policy Hearer Roots : Type} [Listener Hearer] [RootProvider Roots]
  {collector cleared swept last after : Collector WindowedMemory Policy Hearer} {roots : Roots}
  {size fieldCount : Nat}

/-! ## Cycles -/

/-- What one or more cycles with the same roots have done. -/
structure Cycled (roots : Roots) (kinds : List CycleKind)
    (collector after : Collector WindowedMemory Policy Hearer) : Prop where
  rests : after.Rests
  retains : collector.heap.Retains (RootProvider.current roots) after.heap
  minorCycles : after.totals.minorCycles = collector.totals.minorCycles + kinds.count .minor
  majorCycles : after.totals.majorCycles = collector.totals.majorCycles + kinds.count .major
  allocationFailures : after.totals.allocationFailures = collector.totals.allocationFailures

omit [Listener Hearer] in
theorem Cycled.refl (rests : collector.Rests) (roots : Roots) :
    collector.Cycled roots [] collector :=
  ⟨rests, .refl _ rests.ready.sound _, rfl, rfl, rfl⟩

omit [Listener Hearer] in
theorem Cycled.trans {kinds later : List CycleKind} (first : collector.Cycled roots kinds cleared)
    (second : cleared.Cycled roots later after) : collector.Cycled roots (kinds ++ later) after where
  rests := second.rests
  retains := first.retains.trans second.retains
  minorCycles := by
    rw [second.minorCycles, first.minorCycles, List.count_append, Nat.add_assoc]
  majorCycles := by
    rw [second.majorCycles, first.majorCycles, List.count_append, Nat.add_assoc]
  allocationFailures := second.allocationFailures.trans first.allocationFailures

theorem cycled_of_collectMajor {report : CycleReport} (rests : collector.Rests)
    (ran : collector.collectMajor roots = .ok (.ok report, after)) :
    collector.Cycled roots [.major] after ∧
      after.totals.promotionFailures = collector.totals.promotionFailures := by
  rcases collectMajor_eq_ok ran with ⟨_, _, refused, _⟩ | ⟨_, _, _, _, _, cycle, counts⟩
  · cases refused
  · exact ⟨⟨rests.step (.major cycle counts),
      retains_of_liveRoots (rests.ready.sound.retains_of_majorCycle cycle),
      counts.totals.minorCycles, counts.totals.majorCycles, counts.totals.allocationFailures⟩,
      counts.totals.promotionFailures⟩

variable [PromotionPolicy Policy]

theorem cycled_of_collectMinor {report : CycleReport} (rests : collector.Rests)
    (ran : collector.collectMinor roots = .ok (.ok report, after)) :
    collector.Cycled roots [.minor] after ∧
      after.heap.eden.capacity = collector.heap.eden.capacity ∧
      (after.totals.promotionFailures = collector.totals.promotionFailures + 1 ∨
        after.heap.eden.spare = after.heap.eden.capacity) := by
  rcases collectMinor_eq_ok ran with
    ⟨_, _, refused, _⟩ | ⟨_, _, outcome, heap, _, threshold, _, cycle, tuned, counts⟩
  · cases refused
  have retains : collector.heap.Retains (RootProvider.current roots) after.heap := by
    rw [tuned]
    exact (retains_of_liveRoots (rests.ready.sound.retains_of_minorCycle cycle)).setThreshold _
  obtain ⟨capacity, promoted⟩ := rests.ready.eden_of_minorCycle cycle
  have eden : after.heap.eden = heap.eden := by rw [tuned, Heap.eden_setThreshold]
  have failures := counts.totals.promotionFailures
  refine ⟨⟨rests.step (.minor cycle tuned counts), retains, counts.totals.minorCycles,
    counts.totals.majorCycles, counts.totals.allocationFailures⟩, eden ▸ capacity, ?_⟩
  cases failed : outcome.promotionFailed with
  | true =>
      rw [failed] at failures
      exact .inl failures
  | false => exact .inr (eden ▸ promoted failed)

/-! ## The ladder -/

/-- The cycles that an allocation runs for an object of a rounded size, and the collector
after them. -/
inductive Ladder (roots : Roots) (rounded : Nat)
    (collector : Collector WindowedMemory Policy Hearer) :
    List CycleKind → Collector WindowedMemory Policy Hearer → Prop where
  | unneeded (fits : rounded ≤ collector.heap.eden.spare) : Ladder roots rounded collector [] collector
  | minor {report : CycleReport} {cleared : Collector WindowedMemory Policy Hearer}
      (crowded : collector.heap.eden.spare < rounded)
      (minor : collector.collectMinor roots = .ok (.ok report, cleared))
      (fits : rounded ≤ cleared.heap.eden.spare) : Ladder roots rounded collector [.minor] cleared
  | major {report second : CycleReport} {cleared swept : Collector WindowedMemory Policy Hearer}
      (crowded : collector.heap.eden.spare < rounded)
      (minor : collector.collectMinor roots = .ok (.ok report, cleared))
      (still : cleared.heap.eden.spare < rounded)
      (major : cleared.collectMajor roots = .ok (.ok second, swept)) :
      Ladder roots rounded collector [.minor, .major] swept

/-- How an allocation ends after its cycles, and in which state. -/
inductive Lands (size fieldCount : Nat) (last : Collector WindowedMemory Policy Hearer) :
    Answer Handle → Collector WindowedMemory Policy Hearer → Prop where
  | placed {handle : Handle} (fits : roundedSize size ≤ last.heap.eden.spare)
      (fresh : last.heap.directory.fresh? = some handle) :
      Lands size fieldCount last (.ok handle)
        { last with heap := last.heap.withNew handle (roundedSize size) fieldCount }
  | failed (full : last.heap.eden.spare < roundedSize size) :
      Lands size fieldCount last
        (.error (.allocationFailure (roundedSize size) last.heap.eden.spare last.heap.old.spare))
        { last with
          totals := { last.totals with
            allocationFailures := last.totals.allocationFailures + 1 } }

omit [Listener Hearer] [PromotionPolicy Policy] in
theorem lands_of_tryAllocate {handle : Handle} {heap : Heap WindowedMemory} (rests : last.Rests)
    (ran : last.heap.tryAllocate size fieldCount = .ok (some handle, heap)) :
    Lands size fieldCount last (.ok handle) { last with heap } := by
  have fits := (rests.ready.placed_iff ran).mp rfl
  rcases Heap.tryAllocate_eq_ok ran with ⟨unplaced, _⟩ | ⟨_, _, placed, fresh, aligned, _, rfl⟩
  · cases unplaced
  · cases placed
    obtain ⟨_, rfl⟩ := alignSize_eq_ok_iff.mp aligned
    exact .placed fits fresh

omit [Listener Hearer] [PromotionPolicy Policy] in
theorem crowded_of_tryAllocate (rests : last.Rests)
    (ran : last.heap.tryAllocate size fieldCount = .ok (none, last.heap)) :
    last.heap.eden.spare < roundedSize size :=
  Nat.lt_of_not_le fun fits => absurd ((rests.ready.placed_iff ran).mpr fits) (by simp)

omit [Listener Hearer] [PromotionPolicy Policy] in
theorem lands_of_giveUp {failure : Failure}
    (full : last.heap.eden.spare < roundedSize size)
    (ran : last.giveUp size = .ok (failure, after)) :
    Lands size fieldCount last (.error failure) after := by
  obtain ⟨_, _, _, rfl, aligned, eden, old, rfl⟩ := giveUp_eq_ok ran
  obtain ⟨_, rfl⟩ := alignSize_eq_ok_iff.mp aligned
  obtain ⟨_, rfl⟩ := Arena.free_eq_ok_iff.mp eden
  obtain ⟨_, rfl⟩ := Arena.free_eq_ok_iff.mp old
  exact .failed full

theorem Climbs.ladder {kinds : List CycleKind} {answer : Answer Handle} (rests : collector.Rests)
    (climbs : collector.Climbs roots size fieldCount kinds answer after) :
    ∃ last, collector.Ladder roots (roundedSize size) kinds last ∧
      Lands size fieldCount last answer after := by
  cases climbs with
  | atOnce placed =>
      have fits := (rests.ready.placed_iff placed).mp rfl
      exact ⟨collector, .unneeded fits, lands_of_tryAllocate rests placed⟩
  | @afterMinor _ cleared _ _ crowded minor placed =>
      have clearedRests := (cycled_of_collectMinor rests minor).1.rests
      have fits := (clearedRests.ready.placed_iff placed).mp rfl
      exact ⟨cleared, .minor (crowded_of_tryAllocate rests crowded) minor fits,
        lands_of_tryAllocate clearedRests placed⟩
  | @afterMajor _ _ cleared swept _ _ crowded minor still major placed =>
      have clearedRests := (cycled_of_collectMinor rests minor).1.rests
      have sweptRests := (cycled_of_collectMajor clearedRests major).1.rests
      exact ⟨swept, .major (crowded_of_tryAllocate rests crowded) minor
        (crowded_of_tryAllocate clearedRests still) major, lands_of_tryAllocate sweptRests placed⟩
  | @gaveUp _ _ cleared swept _ _ crowded minor still major full gaveUp =>
      have clearedRests := (cycled_of_collectMinor rests minor).1.rests
      have sweptRests := (cycled_of_collectMajor clearedRests major).1.rests
      exact ⟨swept, .major (crowded_of_tryAllocate rests crowded) minor
        (crowded_of_tryAllocate clearedRests still) major,
        lands_of_giveUp (crowded_of_tryAllocate sweptRests full) gaveUp⟩

namespace Ladder

variable {kinds : List CycleKind} {rounded : Nat}

theorem cycled (rests : collector.Rests) (ladder : collector.Ladder roots rounded kinds last) :
    collector.Cycled roots kinds last := by
  cases ladder with
  | unneeded _ => exact .refl rests roots
  | minor _ minor _ => exact (cycled_of_collectMinor rests minor).1
  | major _ minor _ major =>
      have first := (cycled_of_collectMinor rests minor).1
      exact first.trans (cycled_of_collectMajor first.rests major).1

theorem unneeded_iff (ladder : collector.Ladder roots rounded kinds last) :
    kinds = [] ↔ rounded ≤ collector.heap.eden.spare := by
  cases ladder with
  | unneeded fits => simp [fits]
  | minor crowded _ _ => simp [crowded]
  | major crowded _ _ _ => simp [crowded]

/-- If eden could hold the object and still has no room after the cycles, the minor cycle
met a promotion that failed. -/
theorem promotionFailed (rests : collector.Rests)
    (ladder : collector.Ladder roots rounded kinds last)
    (full : last.heap.eden.spare < rounded) (holds : rounded ≤ collector.heap.eden.capacity) :
    kinds = [.minor, .major] ∧
      last.totals.promotionFailures = collector.totals.promotionFailures + 1 := by
  cases ladder with
  | unneeded fits => omega
  | minor _ _ fits => omega
  | major _ minor still major =>
      obtain ⟨first, capacity, promoted⟩ := cycled_of_collectMinor rests minor
      obtain ⟨_, same⟩ := cycled_of_collectMajor first.rests major
      refine ⟨rfl, same.trans (promoted.resolve_right fun cleared => ?_)⟩
      omega

end Ladder

end Collector

end Tenure
