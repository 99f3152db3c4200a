import Tenure.Collector.Basic

/-!
# Running cycles

A cycle begins with its announcement and ends with its report. After a minor cycle
the threshold is tuned and a major cycle is requested if there is a reason for one.
-/

set_option autoImplicit false

namespace Tenure.Collector

variable {Source Policy Hearer : Type}

def emit [Listener Hearer] (collector : Collector Source Policy Hearer) (event : Event) :
    Checked (Collector Source Policy Hearer) := do
  let (wanted, hearer) := Listener.hear collector.hearer collector.phase event
  let requests ← collector.requests.pushAll wanted
  return { collector with hearer, requests }

/-- Enters a cycle of a kind, whose request no longer waits, and announces it. -/
def enter [Listener Hearer] (collector : Collector Source Policy Hearer) (kind : CycleKind) :
    Checked (Collector Source Policy Hearer) := do
  let requests := collector.requests.clear kind
  let cycle ← Word.add collector.cycle 1
  if collector.phase ≠ .idle then throw .collectorBusy
  { collector with requests, cycle, phase := .during kind }.emit (.started kind cycle)

def conclude [Listener Hearer] (collector : Collector Source Policy Hearer)
    (report : CycleReport) : Checked (Collector Source Policy Hearer) := do
  let totals ← collector.totals.record report
  { collector with totals }.emit (.finished report)

def poisonOn (collector : Collector Source Policy Hearer) (failure : Failure) :
    Collector Source Policy Hearer :=
  if failure.isFatal then { collector with poison := some failure } else collector

def liveRoots {Roots : Type} [RootProvider Roots] (collector : Collector Source Policy Hearer)
    (roots : Roots) : List Handle :=
  (RootProvider.current roots).filter collector.heap.directory.isLive

def tune [PromotionPolicy Policy] (collector : Collector Source Policy Hearer) :
    Checked (Collector Source Policy Hearer) := do
  let heap := collector.heap
  let (suggestion, policy) := PromotionPolicy.next collector.policy heap.threshold heap.survival
  let collector := { collector with policy }
  match suggestion with
  | none => return collector
  | some threshold =>
    match heap.setThreshold threshold with
    | (.ok (), heap) =>
      let thresholdChanges ← Word.add collector.totals.thresholdChanges 1
      return { collector with heap, totals := { collector.totals with thresholdChanges } }
    | (.error _, _) => return collector

def requestMajorIf (collector : Collector Source Policy Hearer) (condition : Bool) :
    Checked (Collector Source Policy Hearer) := do
  if condition then
    let (_, collector) ← collector.request .major
    return collector
  else return collector

/-- Asks for a major cycle for each reason after a minor one: a failed promotion, a
full old space, enough minor cycles since the last major one. -/
def checkTriggers (collector : Collector Source Policy Hearer) (promotionFailed : Bool) :
    Checked (Collector Source Policy Hearer) := do
  let settings := collector.heap.settings
  let interval := settings.majorCycleInterval.toNat
  let promotionFailures ←
    if promotionFailed then Word.add collector.totals.promotionFailures 1
    else pure collector.totals.promotionFailures
  let collector ← { collector with
    totals := { collector.totals with promotionFailures } }.requestMajorIf promotionFailed
  let collector ← collector.requestMajorIf
    (collector.heap.old.occupancy ≥ settings.oldGrowthTrigger)
  collector.requestMajorIf (interval > 0 && collector.minorsSinceMajor ≥ interval)

def collectMinor [MemorySource Source] [PromotionPolicy Policy] [Listener Hearer]
    {Roots : Type} [RootProvider Roots]
    (collector : Collector Source Policy Hearer) (roots : Roots) :
    Checked (Answer CycleReport × Collector Source Policy Hearer) := do
  match collector.checkPoison with
  | .error failure => return (.error failure, collector)
  | .ok () =>
    let roots := collector.liveRoots roots
    let collector ← collector.enter .minor
    let (answer, heap, marker) ← collector.heap.minorCycle collector.marker roots
    let collector := { collector with heap, marker, phase := .idle }
    match answer with
    | .error failure => return (.error failure, collector.poisonOn failure)
    | .ok outcome =>
      let report : CycleReport := {
        kind := .minor
        number := collector.cycle
        pause := 0
        bytesReclaimed := outcome.bytesReclaimed
        objectsReclaimed := outcome.objectsReclaimed
        survivalRate := outcome.survival.rate
        promoted := outcome.promoted + outcome.overflowPromoted
        traceSteps := outcome.trace.steps }
      let collector ← collector.conclude report
      let minorsSinceMajor ← Word.add collector.minorsSinceMajor 1
      let collector ← { collector with minorsSinceMajor }.tune
      let collector ← collector.checkTriggers outcome.promotionFailed
      return (.ok report, collector)

def collectMajor [MemorySource Source] [Listener Hearer] {Roots : Type} [RootProvider Roots]
    (collector : Collector Source Policy Hearer) (roots : Roots) :
    Checked (Answer CycleReport × Collector Source Policy Hearer) := do
  match collector.checkPoison with
  | .error failure => return (.error failure, collector)
  | .ok () =>
    let roots := collector.liveRoots roots
    let collector ← collector.enter .major
    let (answer, heap, marker) ← collector.heap.majorCycle collector.marker roots
    let collector := { collector with heap, marker, phase := .idle }
    match answer with
    | .error failure => return (.error failure, collector.poisonOn failure)
    | .ok outcome =>
      let report : CycleReport := {
        kind := .major
        number := collector.cycle
        pause := 0
        bytesReclaimed := outcome.bytesReclaimed
        objectsReclaimed := outcome.objectsReclaimed
        survivalRate := 0.0
        promoted := 0
        traceSteps := outcome.trace.steps }
      let collector ← collector.conclude report
      return (.ok report, { collector with minorsSinceMajor := 0 })

end Tenure.Collector
