/-
Module: Crosswire.CommandLine.Session
Purpose: What the command does. `launch` reads the arguments, loads the program and starts a run, or
  finishes at once; a session is then advanced turn by turn like any run, and `Session.completion?`
  says what the process leaves behind once the run has returned: its exit code, the bytes on standard
  output and the lines on standard error.
Imports: Crosswire.CommandLine.Options, Crosswire.CommandLine.Timing, Crosswire.LogFilter, Crosswire.Run,
  Crosswire.SourceFile, Crosswire.Terminal
Main exports: Completion, Session, Launch, launch, Session.advance, Session.drain, Session.completion?
-/
import Crosswire.CommandLine.Options
import Crosswire.CommandLine.Timing
import Crosswire.LogFilter
import Crosswire.Run
import Crosswire.SourceFile
import Crosswire.Terminal

namespace Crosswire.CommandLine

/-! ### Texts -/

/-- What the version request prints. -/
def versionText : String := "vague 0.1.0\n"

/-- The lines of the help text. -/
def helpLines : List String :=
  ["Run a Vague program",
    "",
    "Usage: vague [OPTIONS] <FILE>",
    "",
    "Arguments:",
    "  <FILE>  File containing a Vague program",
    "",
    "Options:",
    "  -l, --max-steps <MAX_STEPS>  Stop after this many executed instructions",
    "      --trace                  Log every executed instruction (implies trace-level logs for the interpreter)",
    "      --cache-jumps            Match loop brackets once up front instead of scanning on every jump",
    "      --plain                  Never style output, even in discouraged mode",
    "  -v, --verbose...             Increase log verbosity (-v debug, -vv trace)",
    "  -s, --stats                  Print statistics to stderr after running the program",
    "  -h, --help                   Print help",
    "  -V, --version                Print version"]

/-- What the help request prints. -/
def helpText : String :=
  String.join (helpLines.map (· ++ "\n"))

/-- How a halt is told in the statistics. -/
def haltText : Halt → String
  | .ended position => s!"end instruction at {position}"
  | .endOfProgram => "end of program"
  | .stepLimit => "step limit"

/-- The statistics of a run that halted. -/
def statisticsLines (timing : Timing) (steps : Nat) (halt : Halt) : List String :=
  [s!"Execution time: {timing.elapsed}",
    s!"Instructions executed: {steps} ({timing.rate}/s)",
    s!"Halted: {haltText halt}"]

/-- A cause in an error report. Its first line follows its number if there are several causes, and
further lines are indented as far. -/
def causeLines (number : Option Nat) (cause : String) : List String :=
  let (opening, indent) := match number with
    | some number => ("    " ++ toString number ++ ": ", "       ")
    | none => ("    ", "    ")
  match lines cause with
  | [] => [opening]
  | first :: rest => (opening ++ first) :: rest.map (indent ++ ·)

/-- The report of an error: what failed, and the causes behind it. -/
def errorLines (failed : String) (causes : List String) : List String :=
  let numbered := match causes with
    | [cause] => causeLines none cause
    | _ => (causes.zipIdx.map fun (cause, number) => causeLines (some number) cause).flatten
  lines ("Error: " ++ failed) ++ ["", "Caused by:"] ++ numbered

/-! ### Sessions -/

/-- The configuration of the machine that options ask for. -/
def Options.config (options : Options) : Config where
  maxSteps := options.maxSteps
  trace := options.trace
  cacheJumps := options.cacheJumps
  allowStyling := !options.plain

/-- The filter that options ask for: warnings, or more with each request for more; tracing shows
everything that comes from the machine. -/
def Options.filter (options : Options) : LogFilter :=
  let general := Directive.general <| match options.verbosity with
    | 0 => 2
    | 1 => 4
    | _ => .everything
  ⟨if options.trace then [general, .ofTarget "vague_runtime" .everything] else [general]⟩

/-- The filter in force: the one in the environment, if it can be read, or else the options' own. -/
def chooseFilter (environment : Option String) (options : Options) : LogFilter :=
  (environment.bind LogFilter.parse?).getD options.filter

/-- The log lines that a filter lets through. -/
def logLines (filter : LogFilter) (events : List Event) : List String :=
  (events.filter filter.shows).map Event.line

/-- What a process leaves behind. -/
structure Completion where
  exitCode : Nat
  stdout : Array UInt8
  /-- Standard error, line by line. -/
  stderr : List String
deriving DecidableEq, Repr

/-- A loaded program on its way. -/
structure Session where
  options : Options
  filter : LogFilter
  /-- What was logged before the run began. -/
  loaded : Event
  run : Run Terminal

/-- What becomes of a command line before any instruction is executed. -/
inductive Launch where
  | finished (completion : Completion)
  | running (session : Session)

/-- A process that printed to standard output and succeeded. Text that its terminal does not take is no
failure. -/
def Completion.printing (terminal : Terminal) (text : String) : Completion :=
  ⟨0, ((Writing.all text.toUTF8.data.toList).run.run terminal).2.accepted, []⟩

/-- Load the program and start its run. -/
def start (options : Options) (filter : LogFilter) (files : Files) (terminal : Terminal)
    (words : Words) : Launch :=
  match Program.loadFile files options.file with
  | .error error =>
    .finished ⟨1, #[], errorLines s!"Failed to load {options.file}" error.causes⟩
  | .ok program =>
    let machine := Machine.create program terminal options.config words
    .running ⟨options, filter, program.loadedEvent, Run.start machine⟩

/-- Read the arguments and do what they ask for. Of a usage error only the first line is told. -/
def launch (arguments : List String) (environment : Option String) (files : Files)
    (terminal : Terminal) (words : Words) : Launch :=
  match Request.parse arguments with
  | .error error => .finished ⟨2, #[], (lines error.message).take 1⟩
  | .ok .help => .finished (.printing terminal helpText)
  | .ok .version => .finished (.printing terminal versionText)
  | .ok (.run options) => start options (chooseFilter environment options) files terminal words

namespace Session

/-- Take a number of turns of the run, or fewer if it returns before. -/
def advance (session : Session) (turns : Nat) : Session :=
  { session with run := session.run.advance turns }

/-- The events of a session whose run returned `result`: a step limit is pointed out at the end. -/
def events (session : Session) (result : RunResult) : List Event :=
  let limited := match result with
    | .ok .stepLimit => [Event.limited session.run.machine.steps]
    | _ => []
  session.loaded :: session.run.events.toList ++ limited

/-- What is told on standard error, besides the log, when the run has returned. -/
def closing (session : Session) (timing : Timing) : RunResult → List String
  | .ok halt =>
    if session.options.stats then statisticsLines timing session.run.machine.steps halt else []
  | .error error => errorLines s!"Failed to run {session.options.file}" error.causes

/-- Take out what the run has written since the last time: bytes for standard output and log lines. -/
def drain (session : Session) : Array UInt8 × List String × Session :=
  let run := session.run
  let terminal := run.machine.sink
  let emptied := { run with
    machine := { run.machine with sink := { terminal with accepted := #[] } }
    events := #[] }
  (terminal.accepted, logLines session.filter run.events.toList, { session with run := emptied })

/-- The exit code of a run. -/
def exitCode : RunResult → Nat
  | .ok _ => 0
  | .error _ => 1

/-- What the process leaves behind, once the run has returned. -/
def completion? (session : Session) (timing : Timing) : Option Completion :=
  match session.run.result with
  | none => none
  | some result => some {
      exitCode := exitCode result
      stdout := session.run.machine.sink.accepted
      stderr := logLines session.filter (session.events result) ++ session.closing timing result }

end Session

end Crosswire.CommandLine
