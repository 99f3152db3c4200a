import Tenure.CommandLine.Parameter
import Tenure.CommandLine.Value
import Tenure.Simulation.Run

/-!
# Options of a simulation

The command line says where the settings come from and which of them are replaced, what
the workload is, and how to report. What it leaves open has a default.
-/

set_option autoImplicit false

namespace Tenure.CommandLine

/-- Causes for which a command line is not carried out. -/
inductive UsageFault where
  | unknownArgument
  /-- No value, or one that is not among those allowed. -/
  | invalidValue
  /-- A value that is no number of the right kind. -/
  | valueValidation
  /-- The same parameter twice. -/
  | argumentConflict
  /-- A value for a flag. -/
  | tooManyValues
  | helpWanted
  | versionWanted
deriving DecidableEq, Repr

def UsageFault.name : UsageFault → String
  | .unknownArgument => "UnknownArgument"
  | .invalidValue => "InvalidValue"
  | .valueValidation => "ValueValidation"
  | .argumentConflict => "ArgumentConflict"
  | .tooManyValues => "TooManyValues"
  | .helpWanted => "DisplayHelp"
  | .versionWanted => "DisplayVersion"

structure Options where
  /-- The file with the settings. -/
  config : Option String := none
  edenSize : Option UInt64 := none
  oldSize : Option UInt64 := none
  promotionThreshold : Option UInt8 := none
  cardSize : Option UInt64 := none
  survivorRatio : Option UInt64 := none
  majorInterval : Option UInt64 := none
  workload : Workload := {}
  format : ReportFormat := .text
  /-- How often more talk was asked for, up to the greatest byte. -/
  verbosity : UInt8 := 0

namespace Options

/-- Gives a parameter that takes one a written value; none if the value is of the wrong
kind. -/
def set? (options : Options) (parameter : Parameter) (text : String) : Option Options :=
  let workload := options.workload
  match parameter with
  | .config => (path? text).map ({ options with config := some · })
  | .edenSize => (word? text).map ({ options with edenSize := some · })
  | .oldSize => (word? text).map ({ options with oldSize := some · })
  | .promotionThreshold => (byte? text).map ({ options with promotionThreshold := some · })
  | .cardSize => (word? text).map ({ options with cardSize := some · })
  | .survivorRatio => (word? text).map ({ options with survivorRatio := some · })
  | .majorInterval => (word? text).map ({ options with majorInterval := some · })
  | .allocations => (word? text).map fun allocations =>
      { options with workload := { workload with allocations } }
  | .objectSize => (word? text).map fun objectSize =>
      { options with workload := { workload with objectSize } }
  | .fields => (word? text).map fun fields =>
      { options with workload := { workload with fields } }
  | .survival => (float? text).map fun survival =>
      { options with workload := { workload with survival } }
  | .maxRoots => (word? text).map fun maxRoots =>
      { options with workload := { workload with maxRoots } }
  | .linkProbability => (float? text).map fun linkProbability =>
      { options with workload := { workload with linkProbability } }
  | .seed => (word? text).map fun seed =>
      { options with workload := { workload with seed } }
  | .format => (format? text).map ({ options with format := · })
  | .adaptive => none
  | .verbose => none
  | .help => none
  | .version => none

def faultOf : Parameter → UsageFault
  | .config => .invalidValue
  | .format => .invalidValue
  | _ => .valueValidation

def set (options : Options) (parameter : Parameter) (text : String) :
    Except UsageFault Options :=
  match options.set? parameter text with
  | some options => .ok options
  | none => .error (faultOf parameter)

def moreVerbose (options : Options) : Options :=
  if options.verbosity = 255 then options
  else { options with verbosity := options.verbosity + 1 }

def logLevel (options : Options) : String :=
  if options.verbosity = 0 then "warn"
  else if options.verbosity = 1 then "info"
  else "debug"

def replace (options : Options) (settings : Settings) : Settings :=
  { settings with
    edenSize := options.edenSize.getD settings.edenSize
    oldSize := options.oldSize.getD settings.oldSize
    promotionThreshold := options.promotionThreshold.getD settings.promotionThreshold
    cardSize := options.cardSize.getD settings.cardSize
    survivorRatio := options.survivorRatio.getD settings.survivorRatio
    majorCycleInterval := options.majorInterval.getD settings.majorCycleInterval }

def ofAnswer {Value : Type} : Answer Value → Except SimulationFailure Value
  | .ok value => .ok value
  | .error failure => .error (.collector failure)

/-- The settings that the file holds, if one is named, or else the defaults. -/
def fileSettings (options : Options) (file : Except FileFault String) :
    Except SimulationFailure Settings :=
  match options.config, file with
  | none, _ => .ok {}
  | some _, .ok text => ofAnswer (Settings.read text)
  | some _, .error fault => .error (.file fault)

/-- The settings of the simulation. They are checked in the file and again with those of
the command line; `file` is what the named file holds. -/
def settings (options : Options) (file : Except FileFault String) :
    Except SimulationFailure Settings := do
  let settings := options.replace (← options.fileSettings file)
  ofAnswer settings.validate
  return settings

def checkedWorkload (options : Options) : Except SimulationFailure Workload := do
  options.workload.validate
  return options.workload

def run (options : Options) (file : Except FileFault String) : Simulated Report := do
  let settings ← Simulated.of (options.settings file)
  let workload ← Simulated.of options.checkedWorkload
  workload.run settings

end Options

end Tenure.CommandLine
