/-
Module: Crosswire.Event
Purpose: The log. Everything the loader, the machine and the command line report on the side is an
  `Event`; its severity, target, message and fields are functions of it, so that a log can be stored,
  filtered and printed without loss.
Imports: Crosswire.Outcome
Main exports: Severity, Event, Event.severity, Event.target, Event.message, Event.fields,
  Event.hasField, Event.line
-/
import Crosswire.Outcome

namespace Crosswire

/-- How important an event is. -/
inductive Severity where
  | error
  | warn
  | info
  | debug
  | trace
deriving DecidableEq, Repr

namespace Severity

/-- The word for a severity in log lines. -/
def text : Severity → String
  | error => "ERROR"
  | warn => "WARN"
  | info => "INFO"
  | debug => "DEBUG"
  | trace => "TRACE"

/-- The verbosity at which events of a severity begin to show. -/
def rank : Severity → Nat
  | error => 1
  | warn => 2
  | info => 3
  | debug => 4
  | trace => 5

end Severity

/-- The content of an event field. -/
inductive FieldValue where
  | number (value : Nat)
  | flag (value : Bool)
  /-- A word, quoted in log lines. -/
  | word (value : String)
  /-- A description, printed as it is. -/
  | description (value : String)
deriving DecidableEq, Repr

/-- How a field's content is printed in a log line. -/
def FieldValue.text : FieldValue → String
  | number value => toString value
  | flag true => "true"
  | flag false => "false"
  | word value => "\"" ++ value ++ "\""
  | description value => value

/-- Something worth logging. -/
inductive Event where
  /-- A source was read into a program. -/
  | loaded (instructions loops : Nat)
  /-- A run call began. -/
  | started (instructions : Nat) (cacheJumps : Bool)
  /-- An instruction is about to be executed. -/
  | step (number position : Nat) (instruction : Instruction) (accumulator : Value)
  /-- A jump was taken. -/
  | jumped (origin target : Nat)
  /-- An instruction faulted. -/
  | aborted (steps : Nat) (fault : Fault)
  /-- The program came to rest. -/
  | finished (steps : Nat) (halt : Halt)
  /-- The command line was told of a step limit that was reached. -/
  | limited (steps : Nat)
deriving DecidableEq, Repr

namespace Event

/-- How important each event is. -/
def severity : Event → Severity
  | loaded .. | started .. | jumped .. | aborted .. | finished .. => .debug
  | step .. => .trace
  | limited .. => .warn

/-- The part of the program that an event comes from; log filters name it. -/
def target : Event → String
  | loaded .. => "vague_lexer::loader"
  | started .. | step .. | jumped .. | aborted .. | finished .. => "vague_runtime::vm"
  | limited .. => "vague"

/-- What each event is called. -/
def message : Event → String
  | loaded .. => "loaded program"
  | started .. => "starting run"
  | step .. => "step"
  | jumped .. => "jump"
  | aborted .. => "run aborted"
  | finished .. => "run finished"
  | limited .. => "step limit reached"

/-- The named contents of an event, in the order in which they are printed. -/
def fields : Event → List (String × FieldValue)
  | loaded instructions loops => [("instructions", .number instructions), ("loops", .number loops)]
  | started instructions cacheJumps =>
    [("instructions", .number instructions), ("cache_jumps", .flag cacheJumps)]
  | step number position instruction accumulator =>
    [("step", .number number), ("ip", .number position), ("instruction", .word instruction.mnemonic),
      ("accumulator", .description accumulator.description)]
  | jumped origin target => [("from", .number origin), ("to", .number target)]
  | aborted steps fault => [("steps", .number steps), ("error", .description fault.message)]
  | finished steps halt => [("steps", .number steps), ("halt_reason", .description halt.description)]
  | limited steps => [("steps", .number steps)]

/-- Whether an event has a field of a name. Its message counts as one. -/
def hasField (event : Event) (name : String) : Bool :=
  name == "message" || (event.fields.map (·.1)).contains name

/-- The log line of an event: severity, message, then the fields. -/
def line (event : Event) : String :=
  let fields := event.fields.map fun (name, value) => " " ++ name ++ "=" ++ value.text
  event.severity.text ++ " " ++ event.message ++ String.join fields

end Event

/-- The event of having loaded a program. -/
def Program.loadedEvent (program : Program) : Event :=
  .loaded program.length program.loopCount

end Crosswire
