/-
Module: Crosswire.CommandLine.Options
Purpose: Reading the command line. Arguments are read from left to right. The value of an argument is
  checked only when the next argument has been recognised, or at the end, so an argument that is not
  recognised is reported before a bad value in front of it.
Imports: Crosswire.Text.ControlSequence, Crosswire.Text.Unsigned
Main exports: Options, Request, UsageError, Request.parse
-/
import Crosswire.Text.ControlSequence
import Crosswire.Text.Unsigned

namespace Crosswire.CommandLine

/-- What a run was asked for. -/
structure Options where
  /-- The file that holds the program. -/
  file : String
  /-- The number of instructions after which to stop. -/
  maxSteps : Option Nat
  trace : Bool
  cacheJumps : Bool
  plain : Bool
  stats : Bool
  /-- How often more log output was asked for. -/
  verbosity : Nat
deriving DecidableEq, Repr

/-- What the command line asks for. -/
inductive Request where
  | run (options : Options)
  | help
  | version
deriving DecidableEq, Repr

/-! ### Errors -/

/-- The arguments that take no value. -/
inductive Switch where
  | trace
  | cacheJumps
  | plain
  | verbose
  | stats
  | help
  | version
deriving DecidableEq, Repr

/-- How a switch is called in messages. The dots say that it may be repeated. -/
def Switch.label : Switch → String
  | trace => "--trace"
  | cacheJumps => "--cache-jumps"
  | plain => "--plain"
  | verbose => "--verbose..."
  | stats => "--stats"
  | help => "--help"
  | version => "--version"

/-- How the step limit is called in messages. -/
def maxStepsLabel : String := "--max-steps <MAX_STEPS>"

/-- How the file is called in messages. -/
def fileLabel : String := "<FILE>"

/-- What is wrong with a command line. -/
inductive UsageError where
  /-- No file was named. -/
  | missingFile
  /-- There is no such argument, or no room for it. -/
  | unexpectedArgument (argument : String)
  /-- An argument that takes a value has none. -/
  | missingValue (label : String)
  /-- A step limit is no number. -/
  | invalidValue (value : String) (cause : NumberError)
  /-- A switch was given a value. -/
  | unexpectedValue (value : String) (switch : Switch)
  /-- An argument that may stand once was repeated. -/
  | repeated (label : String)
deriving DecidableEq, Repr

/-- The wording of a usage error. What was written on the command line is repeated without terminal
controls. -/
def UsageError.message : UsageError → String
  | missingFile => "error: the following required arguments were not provided:"
  | unexpectedArgument argument => s!"error: unexpected argument '{withoutControls argument}' found"
  | missingValue label => s!"error: a value is required for '{label}' but none was supplied"
  | invalidValue value cause =>
    s!"error: invalid value '{withoutControls value}' for '{maxStepsLabel}': {cause.message}"
  | unexpectedValue value switch =>
    s!"error: unexpected value '{withoutControls value}' for '{switch.label}' found; no more were expected"
  | repeated label => s!"error: the argument '{label}' cannot be used multiple times"

/-! ### Reading arguments -/

/-- An argument whose value has not been checked yet. -/
inductive Pending where
  | nothing
  | file (value : String)
  /-- The step limit, with its value once that has been read. -/
  | maxSteps (value : Option String)
deriving DecidableEq, Repr

/-- What has been read so far. -/
structure Progress where
  file : Option String := none
  maxSteps : Option Nat := none
  /-- The switches that have been set, except the repeatable one. -/
  switches : List Switch := []
  verbosity : Nat := 0
  pending : Pending := .nothing
deriving DecidableEq, Repr

/-- Why reading stopped early: something is wrong, or the rest no longer matters. -/
inductive Stop where
  | usage (error : UsageError)
  | help
  | version
deriving DecidableEq, Repr

namespace Progress

/-- Check a step limit and record it. -/
def setMaxSteps (progress : Progress) (value : String) : Except Stop Progress :=
  if progress.maxSteps.isSome then .error (.usage (.repeated maxStepsLabel))
  else
    match parseUnsigned value with
    | .ok limit => .ok { progress with maxSteps := some limit }
    | .error cause => .error (.usage (.invalidValue value cause))

/-- Check the value of the pending argument. -/
def settle (progress : Progress) : Except Stop Progress :=
  let settled := { progress with pending := .nothing }
  match progress.pending with
  | .nothing => .ok settled
  | .file "" => .error (.usage (.missingValue fileLabel))
  | .file value => .ok { settled with file := some value }
  | .maxSteps none => .error (.usage (.missingValue maxStepsLabel))
  | .maxSteps (some value) => settled.setMaxSteps value

/-- Take a switch. -/
def takeSwitch (progress : Progress) (switch : Switch) : Except Stop Progress :=
  match progress.settle with
  | .error stop => .error stop
  | .ok settled =>
    match switch with
    | .help => .error .help
    | .version => .error .version
    | .verbose => .ok { settled with verbosity := settled.verbosity + 1 }
    | once =>
      if once ∈ settled.switches then .error (.usage (.repeated once.label))
      else .ok { settled with switches := once :: settled.switches }

/-- Take the step limit, with the value written in the same argument if there is one. -/
def takeMaxSteps (progress : Progress) (attached : Option String) : Except Stop Progress :=
  match progress.settle with
  | .error stop => .error stop
  | .ok settled =>
    match attached with
    | some value => settled.setMaxSteps value
    | none => .ok { settled with pending := .maxSteps none }

/-- Take an argument that is no option: the file, which may be named once. -/
def takeFile (progress : Progress) (argument : String) : Except Stop Progress :=
  let named := match progress.pending with
    | .file _ => true
    | _ => progress.file.isSome
  if named then .error (.usage (.unexpectedArgument argument))
  else
    match progress.settle with
    | .error stop => .error stop
    | .ok settled => .ok { settled with pending := .file argument }

/-- Take an argument that is no option where a value may be due. -/
def takePlain (progress : Progress) (argument : String) : Except Stop Progress :=
  match progress.pending with
  | .maxSteps none => .ok { progress with pending := .maxSteps (some argument) }
  | _ => progress.takeFile argument

end Progress

/-- An option by its name. -/
inductive OptionName where
  | maxSteps
  | switch (switch : Switch)
deriving DecidableEq, Repr

/-- The option with a long name. -/
def OptionName.ofLong? : String → Option OptionName
  | "max-steps" => some .maxSteps
  | "trace" => some (.switch .trace)
  | "cache-jumps" => some (.switch .cacheJumps)
  | "plain" => some (.switch .plain)
  | "verbose" => some (.switch .verbose)
  | "stats" => some (.switch .stats)
  | "help" => some (.switch .help)
  | "version" => some (.switch .version)
  | _ => none

/-- The option with a one-letter name. -/
def OptionName.ofShort? : Char → Option OptionName
  | 'l' => some .maxSteps
  | 'v' => some (.switch .verbose)
  | 's' => some (.switch .stats)
  | 'h' => some (.switch .help)
  | 'V' => some (.switch .version)
  | _ => none

namespace Progress

/-- Take a long option, written behind two dashes; a value may follow an equals sign. -/
def takeLong (progress : Progress) (written : List Char) : Except Stop Progress :=
  let name := String.ofList (written.takeWhile (· != '='))
  let attached := match written.dropWhile (· != '=') with
    | _ :: value => some (String.ofList value)
    | [] => none
  match OptionName.ofLong? name, attached with
  | none, _ => .error (.usage (.unexpectedArgument ("--" ++ name)))
  | some .maxSteps, _ => progress.takeMaxSteps attached
  | some (.switch switch), none => progress.takeSwitch switch
  | some (.switch switch), some value => .error (.usage (.unexpectedValue value switch))

/-- Take one-letter options, written behind one dash. What follows a step limit is its value, with or
without an equals sign before it. -/
def takeShort (progress : Progress) : List Char → Except Stop Progress
  | [] => .ok progress
  | letter :: rest =>
    match OptionName.ofShort? letter with
    | none => .error (.usage (.unexpectedArgument (String.ofList ['-', letter])))
    | some (.switch switch) =>
      match progress.takeSwitch switch with
      | .error stop => .error stop
      | .ok next => next.takeShort rest
    | some .maxSteps =>
      match rest with
      | [] => progress.takeMaxSteps none
      | '=' :: value => progress.takeMaxSteps (some (String.ofList value))
      | value => progress.takeMaxSteps (some (String.ofList value))

/-- Take arguments of which none is an option. -/
def takeFiles (progress : Progress) : List String → Except Stop Progress
  | [] => .ok progress
  | argument :: rest =>
    match progress.takeFile argument with
    | .error stop => .error stop
    | .ok next => next.takeFiles rest

/-- Take one argument while options are still read. A dash alone is no option. -/
def takeArgument (progress : Progress) (argument : String) : Except Stop Progress :=
  match argument.toList with
  | ['-'] => progress.takePlain argument
  | '-' :: '-' :: written => progress.takeLong written
  | '-' :: written => progress.takeShort written
  | _ => progress.takePlain argument

/-- Take arguments from left to right. Two dashes alone end the options. -/
def takeAll (progress : Progress) : List String → Except Stop Progress
  | [] => .ok progress
  | argument :: rest =>
    if argument = "--" then progress.takeFiles rest
    else
      match progress.takeArgument argument with
      | .error stop => .error stop
      | .ok next => next.takeAll rest

/-- What was asked for, once every argument has been taken. -/
def options (progress : Progress) : Except Stop Options :=
  match progress.settle with
  | .error stop => .error stop
  | .ok settled =>
    match settled.file with
    | none => .error (.usage .missingFile)
    | some file => .ok {
        file
        maxSteps := settled.maxSteps
        trace := settled.switches.contains .trace
        cacheJumps := settled.switches.contains .cacheJumps
        plain := settled.switches.contains .plain
        stats := settled.switches.contains .stats
        verbosity := settled.verbosity }

end Progress

/-- Read all arguments of a command line. -/
def readOptions (arguments : List String) : Except Stop Options :=
  match ({} : Progress).takeAll arguments with
  | .error stop => .error stop
  | .ok progress => progress.options

/-- Read a command line, without the name of the program. -/
def Request.parse (arguments : List String) : Except UsageError Request :=
  match readOptions arguments with
  | .ok options => .ok (.run options)
  | .error .help => .ok .help
  | .error .version => .ok .version
  | .error (.usage error) => .error error

end Crosswire.CommandLine
