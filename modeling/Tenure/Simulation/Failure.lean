import Tenure.Failure

/-!
# Failures of simulations

A simulation fails for the collector's causes, for a workload that makes no sense, or
because the file with the settings cannot be read.
-/

set_option autoImplicit false

namespace Tenure

/-- Causes for which a file cannot be read as a text. -/
inductive FileFault where
  | missing
  | directory
  | notUnicode
  | system (reason : String)
deriving DecidableEq, Repr

def FileFault.message : FileFault → String
  | .missing => "No such file or directory (os error 2)"
  | .directory => "Is a directory (os error 21)"
  | .notUnicode => "stream did not contain valid UTF-8"
  | .system reason => reason

def FileFault.decode (bytes : ByteArray) : Except FileFault String :=
  match String.fromUTF8? bytes with
  | some text => .ok text
  | none => .error .notUnicode

/-- Causes for which a simulation ends without a report. -/
inductive SimulationFailure where
  | collector (failure : Failure)
  | file (fault : FileFault)
  | workload (reason : String)
deriving DecidableEq, Repr

namespace SimulationFailure

def message : SimulationFailure → String
  | .collector failure => s!"collector error: {failure.message}"
  | .file fault => s!"file error: {fault.message}"
  | .workload reason => s!"invalid workload: {reason}"

def kind : SimulationFailure → String
  | .collector failure => failure.kind
  | .file _ => "Io"
  | .workload _ => "Workload"

def inspect : SimulationFailure → String
  | .collector failure => s!"Gc({failure.inspect})"
  | .file fault => s!"Io({Text.inspect fault.message})"
  | .workload reason => s!"Workload({Text.inspect reason})"

def isFatal : SimulationFailure → Bool
  | .collector failure => failure.isFatal
  | _ => false

end SimulationFailure

abbrev Simulated (Value : Type) : Type := ExceptT SimulationFailure Checked Value

namespace Simulated

def of {Value : Type} (answer : Except SimulationFailure Value) : Simulated Value :=
  ExceptT.mk (pure answer)

/-- An operation of the collector as a part of a simulation, which a refusal ends. -/
def ofRefusable {Value : Type} (operation : Refusable Value) : Simulated Value :=
  operation.adapt SimulationFailure.collector

/-- An operation that leaves a state behind even where it is refused, as a part of a
simulation, which a refusal ends. -/
def ofStateful {Value State : Type} (operation : Checked (Answer Value × State)) :
    Simulated (Value × State) := ExceptT.mk do
  match ← operation with
  | (.ok value, state) => return .ok (value, state)
  | (.error failure, _) => return .error (.collector failure)

end Simulated

end Tenure
