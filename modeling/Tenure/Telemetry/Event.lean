import Tenure.Word

/-!
# Events of cycles

The collector tells listeners when a cycle starts and, with a report, when it has
finished. It does not look at a clock: the pause of a cycle is entered by whoever
measures it.
-/

set_option autoImplicit false

namespace Tenure

/-- The two kinds of cycles. -/
inductive CycleKind where
  | minor
  | major
deriving DecidableEq, Repr

def CycleKind.name : CycleKind → String
  | .minor => "Minor"
  | .major => "Major"

structure CycleReport where
  kind : CycleKind
  number : Nat
  pause : Nat
  bytesReclaimed : Nat
  objectsReclaimed : Nat
  /-- The fraction of young objects that survived; zero for major cycles. -/
  survivalRate : Float
  promoted : Nat
  traceSteps : Nat

/-- What listeners are told. -/
inductive Event where
  | started (kind : CycleKind) (number : Nat)
  | finished (report : CycleReport)

def Event.kind : Event → CycleKind
  | .started kind _ => kind
  | .finished report => report.kind

def Event.report? : Event → Option CycleReport
  | .started .. => none
  | .finished report => some report

/-- What the collector is doing. -/
inductive Phase where
  | idle
  | minorActive
  | majorActive
deriving DecidableEq, Repr

def Phase.during : CycleKind → Phase
  | .minor => .minorActive
  | .major => .majorActive

def Phase.name : Phase → String
  | .idle => "Idle"
  | .minorActive => "MinorActive"
  | .majorActive => "MajorActive"

/-- A state that hears of events while the collector is in a phase, and may ask for
cycles in answer. -/
class Listener (Hearer : Type) where
  hear : Hearer → Phase → Event → List CycleKind × Hearer

instance : Listener Unit where
  hear hearer _ _ := ([], hearer)

instance {First Second : Type} [Listener First] [Listener Second] :
    Listener (First × Second) where
  hear hearers phase event :=
    let (wanted, first) := Listener.hear hearers.1 phase event
    let (more, second) := Listener.hear hearers.2 phase event
    (wanted ++ more, (first, second))

structure EventLog where
  events : Array Event

namespace EventLog

def empty : EventLog := { events := #[] }

def record (log : EventLog) (event : Event) : EventLog := { events := log.events.push event }

def reports (log : EventLog) : List CycleReport := log.events.toList.filterMap Event.report?

instance : Listener EventLog where
  hear log _ event := ([], log.record event)

end EventLog

end Tenure
