import Tenure.Proofs.Collector.Totality

/-!
# What an allocation promises

An allocation asks for the least number of whole granules. It answers with a new object in
eden exactly if there is room after its cycles, and tells otherwise how much room there is.
All that the roots lead to lives on with the same fields, whichever way it ends. The sizes
near the end of the words are an exception: they cannot be rounded up.
-/

set_option autoImplicit false

namespace Tenure.Collector

variable {Policy Hearer Roots : Type} [PromotionPolicy Policy] [Listener Hearer]
  [RootProvider Roots] {collector last after : Collector WindowedMemory Policy Hearer}
  {roots : Roots} {size fieldCount : Nat} {kinds : List CycleKind} {answer : Answer Handle}

/-- A handle that named no live object, neither on entry nor after the cycles, names a new
object in eden, and the other objects are as the cycles left them. -/
structure Places (size fieldCount : Nat)
    (collector last : Collector WindowedMemory Policy Hearer) (handle : Handle)
    (after : Collector WindowedMemory Policy Hearer) : Prop where
  fresh : collector.heap.directory.isLive handle = false
  unused : last.heap.directory.isLive handle = false
  recorded : ∃ address, after.heap.directory.get? handle = some
    { generation := .eden
      age := 0
      space := .eden
      address
      size := roundedSize size
      fields := List.replicate fieldCount none }
  others : ∀ other, other ≠ handle →
    after.heap.directory.get? other = last.heap.directory.get? other
  totals : after.totals = last.totals

/-- The failure tells the room that there is, and it is counted. If eden could hold the
object, the minor cycle counted a promotion that failed. -/
structure GivesUp (size : Nat) (collector : Collector WindowedMemory Policy Hearer)
    (failure : Failure) (after : Collector WindowedMemory Policy Hearer) : Prop where
  failure_eq : failure =
    .allocationFailure (roundedSize size) after.heap.eden.spare after.heap.old.spare
  crowded : after.heap.eden.spare < roundedSize size
  counted : after.totals.allocationFailures = collector.totals.allocationFailures + 1
  promotionFailed : roundedSize size ≤ collector.heap.eden.capacity →
    after.totals.promotionFailures = collector.totals.promotionFailures + 1

/-- The cycles that an allocation runs, and what it leaves. -/
structure Allocates (roots : Roots) (size fieldCount : Nat)
    (collector : Collector WindowedMemory Policy Hearer) (kinds : List CycleKind)
    (last : Collector WindowedMemory Policy Hearer) (answer : Answer Handle)
    (after : Collector WindowedMemory Policy Hearer) : Prop where
  least : IsLeast {rounded | granule ∣ rounded ∧ max size 1 ≤ rounded} (roundedSize size)
  ladder : collector.Ladder roots (roundedSize size) kinds last
  unneeded_iff : kinds = [] ↔ roundedSize size ≤ collector.heap.eden.spare
  minorCycles : after.totals.minorCycles = collector.totals.minorCycles + kinds.count .minor
  majorCycles : after.totals.majorCycles = collector.totals.majorCycles + kinds.count .major
  placed_iff : (∃ handle, answer = .ok handle) ↔ roundedSize size ≤ last.heap.eden.spare
  placed : ∀ handle, answer = .ok handle → Places size fieldCount collector last handle after
  failed : ∀ failure, answer = .error failure → GivesUp size collector failure after
  kept : ∀ root ∈ RootProvider.current roots, collector.heap.directory.isLive root = true →
    ∀ handle, collector.heap.directory.graph.Leads root handle → ∃ before record,
      collector.heap.directory.get? handle = some before ∧
      after.heap.directory.get? handle = some record ∧ record.fields = before.fields

omit [PromotionPolicy Policy] [Listener Hearer] in
/-- What the roots lead to after the cycles lives on in a heap that adds an object at most. -/
theorem Cycled.kept (cycled : collector.Cycled roots kinds last) {final : Heap WindowedMemory}
    (same : ∀ handle record, last.heap.directory.get? handle = some record →
      final.directory.get? handle = some record)
    {root : Handle} (member : root ∈ RootProvider.current roots)
    (live : collector.heap.directory.isLive root = true) {handle : Handle}
    (leads : collector.heap.directory.graph.Leads root handle) : ∃ before record,
      collector.heap.directory.get? handle = some before ∧
      final.directory.get? handle = some record ∧ record.fields = before.fields := by
  obtain ⟨record, found⟩ :=
    Directory.isLive_iff.mp (cycled.retains.live root member live handle leads)
  obtain ⟨before, beforeFound, fields⟩ := cycled.retains.fields handle record found
  exact ⟨before, record, beforeFound, same handle record found, fields⟩

theorem Ladder.allocates (rests : collector.Rests)
    (ladder : collector.Ladder roots (roundedSize size) kinds last)
    (lands : Lands size fieldCount last answer after) :
    Allocates roots size fieldCount collector kinds last answer after := by
  have cycled := ladder.cycled rests
  have formed := cycled.rests.ready.sound.consistent.directory
  cases lands with
  | @placed handle fits fresh =>
      have lookup := Heap.get?_withNew fresh (roundedSize size) fieldCount
      have unknown := formed.get?_fresh fresh
      refine
        { least := isLeast_roundedSize size
          ladder
          unneeded_iff := ladder.unneeded_iff
          minorCycles := cycled.minorCycles
          majorCycles := cycled.majorCycles
          placed_iff := ⟨fun _ => fits, fun _ => ⟨handle, rfl⟩⟩
          placed := fun other same => ?_
          failed := nofun
          kept := fun root member live target leads =>
            cycled.kept (fun other record found => ?_) member live leads }
      · cases same
        exact
          { fresh := cycled.retains.turns.not_live_of_fresh formed fresh
            unused := Directory.isLive_eq_false_iff.mpr unknown
            recorded := ⟨_, (lookup handle).trans (if_pos rfl)⟩
            others := fun other different => (lookup other).trans (if_neg different)
            totals := rfl }
      · have different : other ≠ handle := fun same => by
          rw [same, unknown] at found
          cases found
        exact ((lookup other).trans (if_neg different)).trans found
  | failed full =>
      refine
        { least := isLeast_roundedSize size
          ladder
          unneeded_iff := ladder.unneeded_iff
          minorCycles := cycled.minorCycles
          majorCycles := cycled.majorCycles
          placed_iff := ⟨nofun, fun fits => absurd fits (Nat.not_le_of_lt full)⟩
          placed := nofun
          failed := fun failure same => ?_
          kept := fun root member live target leads =>
            cycled.kept (fun other record found => found) member live leads }
      cases same
      exact
        { failure_eq := rfl
          crowded := full
          counted := congrArg (· + 1) cycled.allocationFailures
          promotionFailed := fun holds => (ladder.promotionFailed rests full holds).2 }

/-- An allocation runs the cycles of its ladder, and it does not stop at a trap if its size
can be rounded up, its fields can be stored, and no counter overflows. -/
theorem allocate_climbs (reachable : collector.Reachable) (roots : Roots)
    (size fieldCount : Nat) :
    (∀ answer after, collector.allocate roots size fieldCount = .ok (answer, after) →
      ∃ kinds last, Allocates roots size fieldCount collector kinds last answer after) ∧
    (size + granule < Word.limit → fieldCount * fieldWidth ≤ Word.largestTable →
      collector.HasRoomFor [.minor, .major] →
      ∃ answer after, collector.allocate roots size fieldCount = .ok (answer, after)) := by
  have rests := reachable.rests
  refine ⟨fun answer after ran => ?_, fun small storable room => ?_⟩
  · obtain ⟨kinds, climbs⟩ := climbs_of_allocate rests.healthy ran
    obtain ⟨last, ladder, lands⟩ := climbs.ladder rests
    exact ⟨kinds, last, ladder.allocates rests lands⟩
  · obtain ⟨⟨answer, after⟩, ran⟩ := rests.answers_allocate small storable room roots
    exact ⟨answer, after, ran⟩

/-- Eden is filled with two objects. -/
def fillingOperations : List (Operation (List Handle)) := [.allocate [] 128 1, .allocate [] 128 0]

theorem allocate_climbs_when_crowded :
    ∃ collector : Collector WindowedMemory FixedPromotion Unit,
      collector.Reachable ∧ collector.heap.eden.spare < 20 ∧
      collector.HasRoomFor [.minor, .major] ∧ ∃ answer after kinds last,
        collector.allocate [Heap.firstHandle] 20 2 = .ok (answer, after) ∧
        Allocates [Heap.firstHandle] 20 2 collector kinds last answer after := by
  obtain ⟨collector, reachable, facts⟩ := reachable_of_leadsTo
    (show leadsTo Heap.smallSettings none FixedPromotion.mk () fillingOperations
      (fun collector =>
        let totals := collector.totals
        let directory := collector.heap.directory
        decide (collector.heap.eden.spare < 20 ∧ collector.cycle = 0 ∧
          collector.minorsSinceMajor = 0 ∧ collector.requests.dropped = 0 ∧
          totals.minorCycles = 0 ∧ totals.majorCycles = 0 ∧ totals.bytesReclaimed = 0 ∧
          totals.objectsReclaimed = 0 ∧ totals.objectsPromoted = 0 ∧
          totals.promotionFailures = 0 ∧ totals.thresholdChanges = 0 ∧
          totals.allocationFailures = 0 ∧ directory.live = 2 ∧ directory.bytes = 256 ∧
          directory.fieldCount = 1)) = true by decide +kernel)
  obtain ⟨crowded, cycle, minors, dropped, minorCycles, majorCycles, bytes, objects, promoted,
    failures, changes, gaveUp, live, storage, fields⟩ := of_decide_eq_true facts
  have room : collector.HasRoomFor [.minor, .major] :=
    { cycle := by simp [cycle, Word.limit]
      minorsSinceMajor := by simp [minors, Word.limit]
      totals := by constructor <;> simp [*, Word.limit]
      fieldCount := by simp [fields, Word.limit]
      hears := fun heard _ => by
        have silent := silent_unit.wishes_eq collector.hearer heard
        simp [dropped, silent, Word.limit] }
  obtain ⟨climbs, answers⟩ := allocate_climbs reachable [Heap.firstHandle] 20 2
  obtain ⟨answer, after, ran⟩ := answers (by decide) (by decide) room
  obtain ⟨kinds, last, allocates⟩ := climbs answer after ran
  exact ⟨collector, reachable, crowded, room, answer, after, kinds, last, ran, allocates⟩

/-- The greatest size of whole granules needs no rounding, and yet it ends in a trap. -/
theorem allocate_greatest_stops : ∃ collector : Collector WindowedMemory FixedPromotion Unit,
    collector.Reachable ∧
      collector.allocate [Heap.firstHandle] (Word.limit - granule) 0 = .error .addOverflow := by
  obtain ⟨collector, reachable, _⟩ := reachable_of_leadsTo
    (show leadsTo Heap.smallSettings none FixedPromotion.mk () fillingOperations
      (fun _ => true) = true by decide +kernel)
  refine ⟨collector, reachable, ?_⟩
  have overflows := collector.heap.tryAllocate_of_limit_le
    (show Word.limit ≤ Word.limit - granule + granule by decide) 0
  simp only [allocate, checkPoison_eq_ok_iff.mpr reachable.rests.healthy, tryAllocate, overflows]
  rfl

end Tenure.Collector
