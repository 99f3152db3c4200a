import Tenure.CommandLine.Options

/-!
# Reading the command line

Arguments are read from left to right, and the first fault decides. The value of a
parameter is either attached to it or the next argument, if that does not look like a
parameter itself. A value of its own is looked at only when the next parameter, or the
end, settles it; an argument that is none at all is reported before that.
-/

set_option autoImplicit false

namespace Tenure.CommandLine

/-- The forms of an argument. -/
inductive Argument where
  /-- Two dashes alone: no parameters follow. -/
  | separator
  /-- A long name with the value behind an equals sign. -/
  | long (name : String) (value : Option String)
  /-- Letters behind one dash. -/
  | short (letters : List Char)
  /-- Anything else; a lone dash belongs here. -/
  | plain (text : String)
deriving DecidableEq, Repr

def splitEquals (characters : List Char) : String × Option String :=
  let name := characters.takeWhile (· ≠ '=')
  match characters.dropWhile (· ≠ '=') with
  | [] => (String.ofList name, none)
  | _ :: value => (String.ofList name, some (String.ofList value))

def Argument.of (text : String) : Argument :=
  match text.toList with
  | ['-', '-'] => .separator
  | '-' :: '-' :: rest =>
    let (name, value) := splitEquals rest
    .long name value
  | '-' :: letter :: rest => .short (letter :: rest)
  | _ => .plain text

/-- A parameter whose value is, or was, the next argument. -/
structure Pending where
  parameter : Parameter
  value : Option String
deriving DecidableEq, Repr

structure Reading where
  options : Options
  /-- The parameters that were settled. -/
  given : List Parameter
  pending : Option Pending

namespace Reading

def start : Reading := { options := {}, given := [], pending := none }

/-- Settles a parameter with a value. Those that take one must have one. -/
def settleValue (reading : Reading) (parameter : Parameter) (value : Option String) :
    Except UsageFault Reading :=
  match value with
  | none => .error .invalidValue
  | some text =>
    if parameter ∈ reading.given then .error .argumentConflict
    else do
      let options ← reading.options.set parameter text
      return { reading with options, given := parameter :: reading.given }

def settle (reading : Reading) : Except UsageFault Reading :=
  match reading.pending with
  | none => .ok reading
  | some pending => { reading with pending := none }.settleValue pending.parameter pending.value

def give (reading : Reading) (parameter : Parameter) (value : String) :
    Except UsageFault Reading := do
  let reading ← reading.settle
  reading.settleValue parameter (some value)

def expect (reading : Reading) (parameter : Parameter) : Except UsageFault Reading := do
  let reading ← reading.settle
  return { reading with pending := some { parameter, value := none } }

/-- Takes a flag. More talk may be asked for repeatedly. -/
def raise (reading : Reading) (flag : Parameter) : Except UsageFault Reading := do
  let reading ← reading.settle
  match flag with
  | .help => throw .helpWanted
  | .version => throw .versionWanted
  | .verbose => return { reading with options := reading.options.moreVerbose }
  | _ =>
    if flag ∈ reading.given then throw .argumentConflict
    let options := reading.options
    return { reading with
      options := { options with workload := { options.workload with adaptive := true } }
      given := flag :: reading.given }

def takeLong (reading : Reading) (name : String) (value : Option String) :
    Except UsageFault Reading :=
  match Parameter.ofLong? name with
  | none => .error .unknownArgument
  | some parameter =>
    match parameter.takesValue, value with
    | true, some value => reading.give parameter value
    | true, none => reading.expect parameter
    | false, some _ => .error .tooManyValues
    | false, none => reading.raise parameter

/-- Takes letters. What follows one that takes a value is its value, after an equals
sign if there is one. -/
def takeShort (reading : Reading) : List Char → Except UsageFault Reading
  | [] => .ok reading
  | letter :: rest =>
    match Parameter.ofShort? letter with
    | none => .error .unknownArgument
    | some parameter =>
      if parameter.takesValue then
        match rest with
        | [] => reading.expect parameter
        | '=' :: value => reading.give parameter (String.ofList value)
        | value => reading.give parameter (String.ofList value)
      else do
        let reading ← reading.raise parameter
        reading.takeShort rest

/-- Takes an argument that is no parameter: it must be the value of one. -/
def takePlain (reading : Reading) (text : String) : Except UsageFault Reading :=
  match reading.pending with
  | some { parameter, value := none } =>
    .ok { reading with pending := some { parameter, value := some text } }
  | _ => .error .unknownArgument

/-- Takes arguments one after another. Nothing may stand behind the separator. -/
def takeAll (reading : Reading) : List String → Except UsageFault Reading
  | [] => reading.settle
  | argument :: rest => do
    match Argument.of argument with
    | .separator => if rest.isEmpty then reading.settle else throw .unknownArgument
    | .long name value => (← reading.takeLong name value).takeAll rest
    | .short letters => (← reading.takeShort letters).takeAll rest
    | .plain text => (← reading.takePlain text).takeAll rest

end Reading

def Options.read (arguments : List String) : Except UsageFault Options := do
  let reading ← Reading.start.takeAll arguments
  return reading.options

end Tenure.CommandLine
