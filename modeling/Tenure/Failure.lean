import Tenure.Generation
import Tenure.Handle
import Tenure.Text.Inspect
import Tenure.Word

/-!
# Failures

A failure is an answer of the collector: the request was refused for a stated
cause and the collector goes on. Only a broken marking invariant is fatal.
-/

set_option autoImplicit false

namespace Tenure

/-- Causes for which the collector refuses a request. -/
inductive Failure where
  /-- Eden has no room, not even after a minor and a major cycle. -/
  | allocationFailure (requested edenFree oldFree : Nat)
  /-- A scanned object references one that marking never reached. -/
  | invariantViolation (holder target : Handle)
  /-- A setting is out of its range. -/
  | configuration (reason : String)
  /-- The handle does not name a live object. -/
  | staleHandle (handle : Handle)
  /-- The object has fewer fields than the index asks for. -/
  | fieldOutOfBounds (handle : Handle) (index count : Nat)
  /-- The memory source refused the first reservation of a space. -/
  | regionReservation (space : Space) (bytes : Nat)
deriving DecidableEq, Repr

namespace Failure

def message : Failure → String
  | .allocationFailure requested edenFree oldFree =>
      s!"allocation of {requested} bytes failed after minor and major collection " ++
        s!"(eden free: {edenFree}, old free: {oldFree})"
  | .invariantViolation holder target =>
      s!"tri-color invariant violated: black {holder.render} references white {target.render}"
  | .configuration reason => s!"invalid configuration: {reason}"
  | .staleHandle handle => s!"stale or unknown object handle {handle.render}"
  | .fieldOutOfBounds handle index count =>
      s!"field {index} out of bounds for {handle.render} with {count} fields"
  | .regionReservation space bytes =>
      s!"memory provider refused to reserve {bytes} bytes for {space.name}"

def kind : Failure → String
  | .allocationFailure .. => "AllocationFailure"
  | .invariantViolation .. => "InvariantViolation"
  | .configuration .. => "Configuration"
  | .staleHandle .. => "StaleHandle"
  | .fieldOutOfBounds .. => "FieldOutOfBounds"
  | .regionReservation .. => "RegionReservation"

def inspectParts (kind : String) (parts : List (String × String)) : String :=
  kind ++ " \x7b " ++ ", ".intercalate (parts.map fun part => part.1 ++ ": " ++ part.2) ++ " \x7d"

def inspect (failure : Failure) : String :=
  match failure with
  | .allocationFailure requested edenFree oldFree =>
      inspectParts failure.kind [("requested", toString requested),
        ("eden_free", toString edenFree), ("old_free", toString oldFree)]
  | .invariantViolation holder target =>
      inspectParts failure.kind [("holder", holder.render), ("target", target.render)]
  | .configuration reason => s!"{failure.kind}({Text.inspect reason})"
  | .staleHandle handle => s!"{failure.kind}({handle.render})"
  | .fieldOutOfBounds handle index count =>
      inspectParts failure.kind [("object", handle.render), ("index", toString index),
        ("len", toString count)]
  | .regionReservation space bytes =>
      inspectParts failure.kind [("region", space.name), ("bytes", toString bytes)]

def isFatal : Failure → Bool
  | .invariantViolation .. => true
  | _ => false

end Failure

abbrev Answer (Value : Type) : Type := Except Failure Value

/-- The answer of an operation that may be refused or trap, where a refusal leaves
nothing behind. -/
abbrev Refusable (Value : Type) : Type := ExceptT Failure Checked Value

def Refusable.of {Value : Type} (answer : Answer Value) : Refusable Value :=
  ExceptT.mk (pure answer)

end Tenure
