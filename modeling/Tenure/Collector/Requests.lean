import Tenure.Telemetry.Event

/-!
# Waiting requests

Requests for cycles wait until they are served. At most one of each kind waits;
another one is dropped and counted.
-/

set_option autoImplicit false

namespace Tenure

structure Requests where
  minor : Bool
  major : Bool
  dropped : Nat
deriving DecidableEq, Repr

namespace Requests

def none : Requests := { minor := false, major := false, dropped := 0 }

def contains (requests : Requests) : CycleKind → Bool
  | .minor => requests.minor
  | .major => requests.major

def isEmpty (requests : Requests) : Bool := !requests.minor && !requests.major

def set (requests : Requests) (kind : CycleKind) (waits : Bool) : Requests :=
  match kind with
  | .minor => { requests with minor := waits }
  | .major => { requests with major := waits }

/-- Adds a request and answers whether it waits now; it is dropped if one of its
kind does already. -/
def push (requests : Requests) (kind : CycleKind) : Checked (Bool × Requests) :=
  if requests.contains kind then do
    let dropped ← Word.add requests.dropped 1
    return (false, { requests with dropped })
  else .ok (true, requests.set kind true)

def pushAll (requests : Requests) (kinds : List CycleKind) : Checked Requests :=
  kinds.foldlM (fun requests kind => do
    let (_, requests) ← requests.push kind
    return requests) requests

/-- Removes the request that is served next, a minor one before a major one. -/
def take (requests : Requests) : Option CycleKind × Requests :=
  if requests.minor then (some .minor, requests.set .minor false)
  else if requests.major then (some .major, requests.set .major false)
  else (Option.none, requests)

def clear (requests : Requests) (kind : CycleKind) : Requests := requests.set kind false

end Requests

end Tenure
