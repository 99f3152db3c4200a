import Tenure.CommandLine.Reader

/-!
# The program

It reads the command line and the file with the settings, runs the simulation and
prints the report. Faults go to the error stream and set the exit code.
-/

set_option autoImplicit false

namespace Tenure.CommandLine

def banner : String := "gc-sim 0.1.0"

def helpLine (parameter : Parameter) : String :=
  let short :=
    match parameter.short? with
    | some letter => s!"-{letter}, "
    | none => "    "
  let value := if parameter.takesValue then " <VALUE>" else ""
  "  " ++ short ++ "--" ++ parameter.long ++ value ++ "\n          " ++ parameter.purpose

def help : String :=
  "Drive a synthetic mutator workload against the generational collector\n\n" ++
    "Usage: gc-sim [OPTIONS]\n\nOptions:\n" ++ "\n".intercalate (Parameter.all.map helpLine)

def readFile (path : String) : IO (Except FileFault String) := do
  try
    let bytes ← IO.FS.readBinFile path
    return FileFault.decode bytes
  catch failure =>
    match failure with
    | .noFileOrDirectory .. => return .error .missing
    | .inappropriateType .. => return .error .directory
    | other => return .error (.system (toString other))

/-- Reports a fault of the command line, or answers a question about the program. -/
def answerFault (fault : UsageFault) : IO UInt32 := do
  match fault with
  | .helpWanted =>
    IO.println help
    return 0
  | .versionWanted =>
    IO.println banner
    return 0
  | fault =>
    IO.eprintln s!"error: {fault.name}"
    return 2

def execute (options : Options) : IO UInt32 := do
  let file ←
    match options.config with
    | some path => readFile path
    | none => pure (.ok "")
  match (options.run file).run with
  | .ok (.ok report) =>
    IO.println (report.render options.format)
    return 0
  | .ok (.error (.collector failure)) =>
    let severity := if failure.isFatal then "Fatal" else "Error"
    let message :=
      if failure.isFatal then failure.message
      else (SimulationFailure.collector failure).message
    IO.eprintln s!"{severity}: {message}"
    return 1
  | .ok (.error failure) =>
    IO.eprintln s!"Error: {failure.message}"
    return 1
  | .error trap =>
    IO.eprintln trap.message
    return 101

end Tenure.CommandLine

def main (arguments : List String) : IO UInt32 := do
  match Tenure.CommandLine.Options.read arguments with
  | .ok options => Tenure.CommandLine.execute options
  | .error fault => Tenure.CommandLine.answerFault fault
