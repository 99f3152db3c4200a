import Tenure.Proofs.Directory.Bounds
import Tenure.Proofs.Heap.Survivors

/-!
# Room for the survivors

A survivor is left in place only if it and the survivors moved before it need more room
than the target has, and then a promotion has failed. So survivors that come first and fit
into the target together are all moved, however many of them the old space takes. The
survivors that were copied fill the target; the next one is promoted early only if it would
fill it above its ceiling.
-/

set_option autoImplicit false

namespace Tenure

theorem Arena.fitsWithin_eq_ok {arena : Arena} {size : Nat} {limit : Float} {fits : Bool}
    (whole : WholeGranules size) (ran : arena.fitsWithin size limit = .ok fits) :
    fits = decide (arena.used + size ≤ arena.ceiling limit) := by
  unfold fitsWithin at ran
  simp only [Checked.bind_eq_ok_iff, Word.add_eq_ok_iff, Checked.pure_eq_ok_iff] at ran
  obtain ⟨aligned, aligns, filled, ⟨_, rfl⟩, rfl⟩ := ran
  rw [whole.eq_of_alignSize aligns]

namespace Heap

variable {Source : Type} {heap after : Heap Source} {handle : Handle} {record : Record}

/-! ## One survivor -/

/-- A survivor takes its size of the space that it moves to. -/
theorem Rehoused.taken {destination : Option Space}
    (rehoused : heap.Rehoused handle destination after)
    (found : heap.directory.get? handle = some record) (whole : WholeGranules record.size)
    (space : Space) : (after.arena space).capacity = (heap.arena space).capacity ∧
      (after.arena space).used =
        (heap.arena space).used + if destination = some space then record.size else 0 := by
  cases rehoused with
  | stays nowhere => simp [nowhere]
  | @moves same destination place sameFound goes placed =>
      rw [found, Option.some.injEq] at sameFound
      subst sameFound
      obtain ⟨aligned, _, _⟩ := Arena.placement?_eq_some placed
      have size := whole.eq_of_alignSize aligned
      rw [arena_moved, goes]
      by_cases here : space = destination
      · subst here
        rw [if_pos rfl, if_pos rfl, Arena.capacity_push, Arena.used_push, size]
        exact ⟨rfl, rfl⟩
      · rw [if_neg here, if_neg fun same => here (Option.some.inj same).symm]
        exact ⟨rfl, rfl⟩

variable [MemorySource Source] {target : Side} {failed : Bool}

/-- The target takes the size of a survivor that is copied, and nothing of the others. -/
theorem Evacuates.taken {fate : Fate} (step : heap.Evacuates target handle fate failed after)
    (spans : heap.cards.Spans heap.old) (found : heap.directory.get? handle = some record)
    (whole : WholeGranules record.size) :
    (after.survivor target).capacity = (heap.survivor target).capacity ∧
      (after.survivor target).used =
        (heap.survivor target).used + if fate = .copied then record.size else 0 := by
  obtain ⟨enlarged, larger, rehoused⟩ := step.split spans
  have taken := rehoused.taken (larger.directory ▸ found) whole (.survivor target)
  rw [larger.arena_of_young (by simp)] at taken
  have copied : fate.destination target = some (.survivor target) ↔ fate = .copied := by
    cases fate <;> simp [Fate.destination]
  simp only [copied] at taken
  exact taken

theorem fits_of_evacuate {answer : Fate × Bool × Heap Source}
    (found : heap.directory.get? handle = some record)
    (ran : heap.evacuate target handle = .ok answer) :
    ∃ fits, (heap.survivor target).fitsWithin record.size
      heap.settings.survivorOccupancyLimit = .ok fits := by
  unfold evacuate at ran
  simp only [found, Checked.bind_eq_ok_iff] at ran
  obtain ⟨fits, measured, _⟩ := ran
  exact ⟨fits, measured⟩

/-- A survivor is retained only if the target has no room for it. Then it did not fit below
the limit either, so its promotion was tried, and failed. -/
theorem overflows_of_retained (spans : heap.cards.Spans heap.old)
    (found : heap.directory.get? handle = some record) (whole : WholeGranules record.size)
    (ran : heap.evacuate target handle = .ok (.retained, failed, after)) :
    failed = true ∧
      (heap.survivor target).capacity < (heap.survivor target).used + record.size := by
  obtain ⟨fits, measured⟩ := fits_of_evacuate found ran
  cases evacuate_eq_ok spans ran with
  | stale unknown => simp [found] at unknown
  | @retained same failed enlarged sameFound young full =>
      rw [found, Option.some.injEq] at sameFound
      subst sameFound
      change (after.arena (.survivor target)).placement? record.size = _ at full
      rw [(young.enlarges spans).arena_of_young (by simp), Heap.arena] at full
      obtain ⟨aligned, ran_align, exceeds⟩ := Arena.placement?_eq_none full
      rw [whole.eq_of_alignSize ran_align] at exceeds
      refine ⟨?_, exceeds⟩
      rcases young with ⟨undue, _, _⟩ | ⟨_, failed, _⟩
      · cases fits with
        | false => exact absurd ⟨false, measured, .inr rfl⟩ undue
        | true =>
            obtain ⟨other, sameAlign, below⟩ := Arena.fitsWithin_eq_true measured
            rw [whole.eq_of_alignSize sameAlign] at below
            omega
      · exact failed

/-- A survivor that is old enough is copied only if its promotion failed. -/
theorem failed_of_copied (spans : heap.cards.Spans heap.old)
    (found : heap.directory.get? handle = some record)
    (ran : heap.evacuate target handle = .ok (.copied, failed, after))
    (aged : heap.threshold ≤ record.nextAge) : failed = true := by
  obtain ⟨fits, measured⟩ := fits_of_evacuate found ran
  cases evacuate_eq_ok spans ran with
  | @copied same place failed enlarged sameFound young placed =>
      rw [found, Option.some.injEq] at sameFound
      subst sameFound
      rcases young with ⟨undue, _, _⟩ | ⟨_, failed, _⟩
      · exact absurd ⟨fits, measured, .inl aged⟩ undue
      · exact failed

/-- A survivor is promoted early only if it would fill the target above its ceiling. -/
theorem overflows_of_promoted {early : Bool} (spans : heap.cards.Spans heap.old)
    (found : heap.directory.get? handle = some record) (whole : WholeGranules record.size)
    (ran : heap.evacuate target handle = .ok (.promoted early, failed, after)) :
    early = decide (record.nextAge < heap.threshold) ∧
      (early = true → (heap.survivor target).ceiling heap.settings.survivorOccupancyLimit <
        (heap.survivor target).used + record.size) := by
  cases evacuate_eq_ok spans ran with
  | @promoted same place enlarged sameFound due placed =>
      rw [found, Option.some.injEq] at sameFound
      subst sameFound
      refine ⟨rfl, fun early => ?_⟩
      obtain ⟨fits, measured, aged | overflows⟩ := due
      · rw [decide_eq_true_eq] at early
        omega
      · rw [Arena.fitsWithin_eq_ok whole measured, decide_eq_false_iff_not] at overflows
        omega

/-! ## All survivors -/

/-- The survivors that were copied to the target, from first to last. -/
def copiedAmong (fates : List (Handle × Fate)) : List Handle :=
  (fates.filter fun entry => entry.2 = .copied).map Prod.fst

/-- The survivors seen so far that were copied fill the target. Those that were not went where
they are because of their age or because a space had no room. -/
structure Housed (start : Heap Source) (target : Side) (seen : List Handle)
    (evacuation : Evacuation Source) : Prop where
  capacity : (evacuation.heap.survivor target).capacity = (start.survivor target).capacity
  used_eq : (evacuation.heap.survivor target).used = (start.survivor target).used +
    start.directory.storage (copiedAmong evacuation.fates.toList)
  retained : ∀ handle, (handle, Fate.retained) ∈ evacuation.fates.toList →
    evacuation.promotionFailed = true ∧ ∃ before rest, seen = before ++ handle :: rest ∧
      (start.survivor target).capacity <
        (start.survivor target).used + start.directory.storage (before ++ [handle])
  late : ∀ handle record, (handle, Fate.copied) ∈ evacuation.fates.toList →
    start.directory.get? handle = some record → start.threshold ≤ record.nextAge →
    evacuation.promotionFailed = true
  early : ∀ handle record early, (handle, Fate.promoted early) ∈ evacuation.fates.toList →
    start.directory.get? handle = some record →
    early = decide (record.nextAge < start.threshold) ∧
      (early = true → ∃ before rest,
        evacuation.fates.toList = before ++ (handle, Fate.promoted true) :: rest ∧
          (start.survivor target).ceiling start.settings.survivorOccupancyLimit <
            (start.survivor target).used + start.directory.storage (copiedAmong before) +
              record.size)

omit [MemorySource Source] in
theorem housed_nil (start : Heap Source) (target : Side) :
    start.Housed target [] { heap := start, fates := #[], promotionFailed := false } where
  capacity := rfl
  used_eq := rfl
  retained := by simp
  late := by simp
  early := by simp

theorem copiedAmong_concat (fates : List (Handle × Fate)) (handle : Handle) (fate : Fate) :
    copiedAmong (fates ++ [(handle, fate)]) =
      copiedAmong fates ++ if fate = .copied then [handle] else [] := by
  rw [copiedAmong, List.filter_append, List.map_append]
  by_cases copied : fate = .copied <;> simp [copiedAmong, copied]

theorem storage_copiedAmong_le (directory : Directory) (fates : List (Handle × Fate)) :
    directory.storage (copiedAmong fates) ≤ directory.storage (fates.map Prod.fst) := by
  induction fates with
  | nil => exact Nat.le_refl 0
  | cons entry rest ih =>
      rw [copiedAmong, List.filter_cons, List.map_cons, Directory.storage_cons]
      split
      · rw [List.map_cons, Directory.storage_cons]
        exact Nat.add_le_add_left ih _
      · exact Nat.le_trans ih (Nat.le_add_left _ _)

theorem Housed.step {start : Heap Source} {seen : List Handle} {current : Evacuation Source}
    {fate : Fate} (housed : start.Housed target seen current)
    (holds : start.Evacuating target seen current) (unseen : handle ∉ seen)
    (initial : start.directory.get? handle = some record) (whole : WholeGranules record.size)
    (ran : current.heap.evacuate target handle = .ok (fate, failed, after)) :
    start.Housed target (seen ++ [handle])
      { heap := after
        fates := current.fates.push (handle, fate)
        promotionFailed := current.promotionFailed || failed } := by
  have found : current.heap.directory.get? handle = some record :=
    (holds.waiting handle unseen).trans initial
  have taken := (evacuate_eq_ok holds.cards ran).taken holds.cards found whole
  have size := Directory.sizeOf_of_get? initial
  have listing : ∀ other otherFate,
      (other, otherFate) ∈ (current.fates.push (handle, fate)).toList →
      (other, otherFate) ∈ current.fates.toList ∨ (other = handle ∧ otherFate = fate) := by
    intro other otherFate listed
    simpa using listed
  refine
    { capacity := taken.1.trans housed.capacity
      used_eq := ?_
      retained := fun other listed => ?_
      late := fun other otherRecord listed otherFound aged => ?_
      early := fun other otherRecord early listed otherFound => ?_ }
  · dsimp only
    rw [taken.2, housed.used_eq, Array.toList_push, copiedAmong_concat, Directory.storage_append,
      Nat.add_assoc]
    by_cases copied : fate = .copied
    · simp [copied, size]
    · simp [copied]
  · rcases listing other _ listed with listed | ⟨rfl, rfl⟩
    · obtain ⟨already, before, rest, split, exceeds⟩ := housed.retained other listed
      refine ⟨by rw [already, Bool.true_or], before, rest ++ [handle], ?_, exceeds⟩
      rw [split, List.append_assoc, List.cons_append]
    · obtain ⟨now, exceeds⟩ := overflows_of_retained holds.cards found whole ran
      refine ⟨by rw [now, Bool.or_true], seen, [], rfl, ?_⟩
      have below := storage_copiedAmong_le start.directory current.fates.toList
      rw [housed.capacity, housed.used_eq] at exceeds
      rw [holds.handled] at below
      rw [Directory.storage_append, Directory.storage_cons, Directory.storage_nil, size]
      omega
  · rcases listing other _ listed with listed | ⟨rfl, rfl⟩
    · rw [housed.late other otherRecord listed otherFound aged, Bool.true_or]
    · rw [initial, Option.some.injEq] at otherFound
      subst otherFound
      rw [failed_of_copied holds.cards found ran (holds.threshold ▸ aged), Bool.or_true]
  · rw [Array.toList_push]
    rcases listing other _ listed with listed | ⟨rfl, rfl⟩
    · obtain ⟨decided, overflows⟩ := housed.early other otherRecord early listed otherFound
      refine ⟨decided, fun promoted => ?_⟩
      obtain ⟨before, rest, split, exceeds⟩ := overflows promoted
      exact ⟨before, rest ++ [(handle, fate)], by rw [split]; simp, exceeds⟩
    · rw [initial, Option.some.injEq] at otherFound
      subst otherFound
      obtain ⟨decided, overflows⟩ := overflows_of_promoted holds.cards found whole ran
      rw [holds.threshold] at decided
      refine ⟨decided, fun promoted => ⟨current.fates.toList, [], by rw [promoted], ?_⟩⟩
      have exceeds := overflows promoted
      rw [Arena.ceiling, housed.capacity, holds.settings, housed.used_eq] at exceeds
      exact exceeds

theorem housed_of_evacuateAll {start : Heap Source} {survivors : List Handle}
    {evacuation : Evacuation Source} (movable : start.Movable target survivors)
    (live : ∀ handle ∈ survivors, start.directory.isLive handle = true)
    (ran : start.evacuateAll target survivors = .ok evacuation) :
    start.Housed target survivors evacuation := by
  refine (evacuateAll_induction (fun seen current => start.Housed target seen current)
    movable ran (housed_nil start target) ?_).2
  intro seen handle rest current fate failed after split holds housed unseen evacuated
  obtain ⟨record, initial⟩ := Directory.isLive_iff.mp (live handle (by simp [split]))
  exact housed.step holds unseen initial (movable.whole handle record initial) evacuated

omit [MemorySource Source] in
/-- If the first survivors fit into the target together, none of them is retained. -/
theorem Housed.not_mem_of_retained {start : Heap Source} {first rest : List Handle}
    {evacuation : Evacuation Source} (housed : start.Housed target (first ++ rest) evacuation)
    (distinct : (first ++ rest).Nodup)
    (room : (start.survivor target).used + start.directory.storage first ≤
      (start.survivor target).capacity)
    (retained : (handle, Fate.retained) ∈ evacuation.fates.toList) : handle ∉ first := by
  intro member
  have apart : handle ∉ rest := fun late =>
    (List.nodup_append.mp distinct).2.2 handle member handle late rfl
  obtain ⟨_, before, later, split, exceeds⟩ := housed.retained handle retained
  -- The survivors up to this one overflow the target; they begin the first ones or
  -- contain all of them.
  rcases List.append_eq_append_iff.mp split with
    ⟨middle, _, late⟩ | ⟨middle, early, tail⟩
  · exact apart (by simp [late])
  · cases middle with
    | nil =>
        rw [List.nil_append] at tail
        exact apart (tail ▸ List.mem_cons_self)
    | cons head middle =>
        obtain ⟨rfl, _⟩ := List.cons.inj tail
        rw [early, Directory.storage_append, Directory.storage_cons] at room
        rw [Directory.storage_append, Directory.storage_cons, Directory.storage_nil] at exceeds
        omega

end Heap

end Tenure
