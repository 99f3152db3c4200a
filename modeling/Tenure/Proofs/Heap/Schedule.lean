import Tenure.Heap.MajorCycle
import Tenure.Proofs.Checked
import Tenure.Proofs.Marking.Outcome

/-!
# Cycles after marking

What a cycle does once it has marked depends on the marked objects and their number, and
not on the settings that govern marking: how many objects one step scans and whether the
marks are checked.
-/

set_option autoImplicit false

namespace Tenure

def MinorOutcome.rescheduled (budget : Nat) (outcome : MinorOutcome) : MinorOutcome :=
  { outcome with trace := outcome.trace.rescheduled budget }

def MajorOutcome.rescheduled (budget : Nat) (outcome : MajorOutcome) : MajorOutcome :=
  { outcome with trace := outcome.trace.rescheduled budget }

namespace Heap

variable {Source : Type}

/-- The heap with other settings for marking. -/
def withSchedule (heap : Heap Source) (budget : UInt64) (verified : Bool) : Heap Source :=
  { heap with
    settings := { heap.settings with stepBudget := budget, verifyAfterTrace := verified } }

variable (heap : Heap Source) (budget : UInt64) (verified : Bool)

/-! ## Stages of a minor cycle -/

theorem survivor_withSchedule (side : Side) :
    (heap.withSchedule budget verified).survivor side = heap.survivor side := by
  cases side <;> rfl

theorem relocate_withSchedule (handle : Handle) (generation : Generation) (space : Space)
    (place : Placement) (age : Nat) :
    (heap.withSchedule budget verified).relocate handle generation space place age =
      (withSchedule · budget verified) <$> heap.relocate handle generation space place age := by
  unfold relocate
  split
  · cases space with
    | eden => rfl
    | survivor side => cases side <;> rfl
    | old => rfl
  · rfl

theorem copy_withSchedule (handle : Handle) (record : Record) (target : Side) (age : Nat) :
    (heap.withSchedule budget verified).copy handle record target age =
      (fun (fate, heap) => (fate, heap.withSchedule budget verified)) <$>
        heap.copy handle record target age := by
  unfold copy
  rw [survivor_withSchedule]
  refine Checked.bind_eq_map_of_same fun place => ?_
  cases place with
  | none => rfl
  | some place =>
      exact Checked.bind_eq_map (relocate_withSchedule heap budget verified ..) fun _ => rfl

theorem vacate_withSchedule (retained : HandleSet) :
    (heap.withSchedule budget verified).vacate retained =
      (withSchedule · budget verified) <$> heap.vacate retained := by
  unfold vacate
  refine Checked.bind_eq_map_of_same fun edenSlide => ?_
  rw [survivor_withSchedule]
  refine Checked.bind_eq_map_of_same fun sourceSlide => ?_
  obtain ⟨edenMoves, eden⟩ := edenSlide
  obtain ⟨sourceMoves, emptied⟩ := sourceSlide
  dsimp only [withSchedule]
  cases heap.holding with
  | a => split <;> rfl
  | b => split <;> rfl

theorem remember_withSchedule (holders : List Handle) :
    (heap.withSchedule budget verified).remember holders =
      (withSchedule · budget verified) <$> heap.remember holders :=
  Checked.bind_eq_map_of_same fun _ => rfl

theorem compact_withSchedule :
    (heap.withSchedule budget verified).compact =
      (fun (moves, heap) => (moves, heap.withSchedule budget verified)) <$> heap.compact := by
  unfold compact
  refine Checked.bind_eq_map_of_same fun edenSlide => ?_
  refine Checked.bind_eq_map_of_same fun slideA => ?_
  refine Checked.bind_eq_map_of_same fun slideB => ?_
  exact Checked.bind_eq_map_of_same fun oldSlide => rfl

section Source

variable [MemorySource Source]

theorem growOld_withSchedule (additional : Nat) :
    (heap.withSchedule budget verified).growOld additional =
      (fun (granted, heap) => (granted, heap.withSchedule budget verified)) <$>
        heap.growOld additional := by
  unfold growOld
  refine Checked.bind_eq_map_of_same fun extension => ?_
  obtain ⟨granted, memory⟩ := extension
  cases granted with
  | false => rfl
  | true =>
      refine Checked.bind_eq_map_of_same fun old => ?_
      exact Checked.bind_eq_map_of_same fun _ => rfl

theorem placementInOld_withSchedule (size : Nat) :
    (heap.withSchedule budget verified).placementInOld size =
      (fun (place, heap) => (place, heap.withSchedule budget verified)) <$>
        heap.placementInOld size := by
  unfold placementInOld
  refine Checked.bind_eq_map_of_same fun place => ?_
  cases place with
  | some place => rfl
  | none =>
      refine Checked.bind_eq_map_of_same fun aligned => ?_
      refine Checked.bind_eq_map (growOld_withSchedule heap budget verified _) fun growth => ?_
      obtain ⟨granted, larger⟩ := growth
      cases granted with
      | false => rfl
      | true => exact Checked.bind_eq_map_of_same fun _ => rfl

theorem evacuate_withSchedule (target : Side) (handle : Handle) :
    (heap.withSchedule budget verified).evacuate target handle =
      (fun (fate, failed, heap) => (fate, failed, heap.withSchedule budget verified)) <$>
        heap.evacuate target handle := by
  have directory : (heap.withSchedule budget verified).directory = heap.directory := rfl
  unfold evacuate
  rw [directory]
  cases heap.directory.get? handle with
  | none => rfl
  | some record =>
      dsimp only
      rw [survivor_withSchedule]
      refine Checked.bind_eq_map_of_same fun fits => ?_
      have threshold : (heap.withSchedule budget verified).threshold = heap.threshold := rfl
      rw [threshold]
      by_cases due : (decide (heap.threshold ≤ min (record.age + 1) maxAge) || !fits) = true
      · rw [if_pos due, if_pos due]
        refine Checked.bind_eq_map (placementInOld_withSchedule heap budget verified _)
          fun placement => ?_
        obtain ⟨place, larger⟩ := placement
        cases place with
        | none => exact Checked.bind_eq_map (copy_withSchedule ..) fun _ => rfl
        | some place => exact Checked.bind_eq_map (relocate_withSchedule ..) fun _ => rfl
      · rw [if_neg due, if_neg due]
        exact Checked.bind_eq_map (copy_withSchedule ..) fun _ => rfl

theorem evacuateAll_withSchedule (target : Side) (survivors : List Handle) :
    (heap.withSchedule budget verified).evacuateAll target survivors =
      (fun evacuation =>
        { evacuation with heap := evacuation.heap.withSchedule budget verified }) <$>
        heap.evacuateAll target survivors := by
  unfold evacuateAll
  refine Checked.foldlM_eq_map (fun evacuation : Evacuation Source =>
    { evacuation with heap := evacuation.heap.withSchedule budget verified })
    (fun evacuation handle => ?_) survivors { heap, fates := #[], promotionFailed := false }
  exact Checked.bind_eq_map (evacuate_withSchedule evacuation.heap budget verified target handle)
    fun _ => rfl

theorem relieve_withSchedule :
    (heap.withSchedule budget verified).relieve =
      (fun (granted, heap) => (granted, heap.withSchedule budget verified)) <$>
        heap.relieve := by
  unfold relieve
  have occupancy : (heap.withSchedule budget verified).old.occupancy = heap.old.occupancy := rfl
  have trigger : (heap.withSchedule budget verified).settings.oldGrowthTrigger =
      heap.settings.oldGrowthTrigger := rfl
  rw [occupancy, trigger]
  split
  · refine Checked.bind_eq_map_of_same fun additional => ?_
    exact Checked.bind_eq_map (growOld_withSchedule heap budget verified additional) fun _ => rfl
  · rfl

/-! ## Minor cycles -/

/-- What a minor cycle takes from the card table before it marks. -/
structure CardScan where
  dirty : List Nat
  holders : List Handle
  remembered : List Handle
  cardRoots : Nat
  cards : CardTable

def scanCards {Source : Type} (heap : Heap Source) (roots : List Handle) : Checked CardScan := do
  if !(heap.survivor heap.holding.other).residents.isEmpty then throw .targetOccupied
  let (found, cards) ← heap.cards.scanAll heap.cardView heap.cards.dirty
  let holders := (HandleSet.of found).toList
  let remembered := heap.youngTargets holders
  let cardRoots ←
    Word.counted (remembered.filter fun target => !(HandleSet.of roots).contains target).length
  return { dirty := heap.cards.dirty, holders, remembered, cardRoots, cards }

/-- What a minor cycle does after marking, to the objects that were reached and to the
others. -/
def reclaimYoung (heap : Heap Source) (scan : CardScan) (reached : Handle → Bool)
    (survived : Nat) (counts : TraceCounts) : Checked (MinorOutcome × Heap Source) := do
  let young := (heap.survivor heap.holding).handles ++ heap.eden.handles
  let (survivors, dead) := young.partition reached
  let (tally, directory) ← heap.directory.sweep dead
  let evacuation ← { heap with directory }.evacuateAll heap.holding.other survivors
  let heap ← evacuation.heap.vacate evacuation.retained
  let heap ← heap.remember (scan.holders ++ evacuation.promoted)
  let promoted := evacuation.count (.promoted false)
  let overflowPromoted := evacuation.count (.promoted true)
  let survival : Survival := {
    youngBefore := young.length
    survived
    promoted := promoted + overflowPromoted
    rate := survivalRate young.length survived }
  let outcome : MinorOutcome := {
    objectsReclaimed := tally.objects
    bytesReclaimed := tally.bytes
    survived := evacuation.count .copied
    promoted
    overflowPromoted
    retained := evacuation.count .retained
    promotionFailed := evacuation.promotionFailed
    cardsScanned := scan.dirty.length
    cardRoots := scan.cardRoots
    trace := counts
    survival }
  return (outcome, { heap with survival })

theorem minorCycle_eq (marker : Marker) (roots : List Handle) :
    heap.minorCycle marker roots = (do
      let scan ← heap.scanCards roots
      let (reached, marker) ← marker.traceInSteps heap.directory.graph heap.directory.isYoung
        (roots ++ scan.remembered) heap.settings.stepBudget.toNat heap.settings.verifyAfterTrace
      match reached with
      | .error failure => return (.error failure, { heap with cards := scan.cards }, marker)
      | .ok reached =>
        let (outcome, after) ← { heap with cards := scan.cards }.reclaimYoung scan
          reached.contains reached.size marker.counts
        return (.ok outcome, after, marker)) := by
  unfold minorCycle scanCards reclaimYoung
  by_cases occupied : (!(heap.survivor heap.holding.other).residents.isEmpty) = true
  · simp only [if_pos occupied]
    rfl
  · simp only [if_neg occupied, bind_assoc, pure_bind]
    rfl

theorem reclaimYoung_withSchedule (scan : CardScan) (reached : Handle → Bool) (survived : Nat)
    (counts : TraceCounts) :
    (heap.withSchedule budget verified).reclaimYoung scan reached survived
        (counts.rescheduled budget.toNat) =
      (fun (outcome, heap) =>
        (outcome.rescheduled budget.toNat, heap.withSchedule budget verified)) <$>
        heap.reclaimYoung scan reached survived counts := by
  unfold reclaimYoung
  rw [survivor_withSchedule]
  refine Checked.bind_eq_map_of_same fun swept => ?_
  refine Checked.bind_eq_map
    (evacuateAll_withSchedule { heap with directory := swept.2 } budget verified _ _)
    fun evacuation => ?_
  refine Checked.bind_eq_map (vacate_withSchedule evacuation.heap budget verified _) fun vacated => ?_
  exact Checked.bind_eq_map (remember_withSchedule vacated budget verified _) fun _ => rfl

/-! ## Major cycles -/

def reclaimAll (heap : Heap Source) (reached : Handle → Bool) (counts : TraceCounts) :
    Checked (MajorOutcome × Heap Source) := do
  let dead := heap.residents.filter fun handle => !reached handle
  let (tally, directory) ← heap.directory.sweep dead
  let (relocations, heap) ← { heap with directory }.compact
  let heap ← { heap with cards := heap.cards.clear }.remember heap.old.handles
  let (oldGrownBy, heap) ← heap.relieve
  let outcome : MajorOutcome := {
    objectsReclaimed := tally.objects
    bytesReclaimed := tally.bytes
    liveObjects := heap.directory.live
    relocations
    oldGrownBy
    trace := counts }
  return (outcome, heap)

theorem majorCycle_eq (marker : Marker) (roots : List Handle) :
    heap.majorCycle marker roots = (do
      let (reached, marker) ← marker.traceInSteps heap.directory.graph heap.directory.isLive
        roots heap.settings.stepBudget.toNat heap.settings.verifyAfterTrace
      match reached with
      | .error failure => return (.error failure, heap, marker)
      | .ok reached =>
        let (outcome, after) ← heap.reclaimAll reached.contains marker.counts
        return (.ok outcome, after, marker)) := by
  unfold majorCycle
  refine bind_congr fun (answer, marked) => ?_
  cases answer with
  | error failure => rfl
  | ok reached => simp only [reclaimAll, bind_assoc, pure_bind]

theorem reclaimAll_withSchedule (reached : Handle → Bool) (counts : TraceCounts) :
    (heap.withSchedule budget verified).reclaimAll reached (counts.rescheduled budget.toNat) =
      (fun (outcome, heap) =>
        (outcome.rescheduled budget.toNat, heap.withSchedule budget verified)) <$>
        heap.reclaimAll reached counts := by
  unfold reclaimAll
  refine Checked.bind_eq_map_of_same fun swept => ?_
  refine Checked.bind_eq_map
    (compact_withSchedule { heap with directory := swept.2 } budget verified) fun slid => ?_
  obtain ⟨moves, slid⟩ := slid
  refine Checked.bind_eq_map (remember_withSchedule { slid with cards := slid.cards.clear }
    budget verified _) fun rebuilt => ?_
  exact Checked.bind_eq_map (relieve_withSchedule rebuilt budget verified) fun _ => rfl

end Source

end Heap

end Tenure
