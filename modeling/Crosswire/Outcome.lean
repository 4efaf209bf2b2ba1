/-
Module: Crosswire.Outcome
Purpose: How a call that runs a program can end: the program halts, or an error stops it.
Imports: Crosswire.Execution, Crosswire.Sink
Main exports: Halt, RunError, RunResult
-/
import Crosswire.Execution
import Crosswire.Sink

namespace Crosswire

/-- Why a program came to rest. -/
inductive Halt where
  /-- The stop instruction at this position was executed. -/
  | ended (position : Nat)
  /-- The position moved past the last instruction. -/
  | endOfProgram
  /-- As many instructions were executed as allowed. -/
  | stepLimit
deriving DecidableEq, Repr

/-- The form in which logs show a halt. -/
def Halt.description : Halt → String
  | ended position => s!"End \x7b ip: {position} \x7d"
  | endOfProgram => "EndOfProgram"
  | stepLimit => "StepLimit"

/-- What can stop a call that runs instructions. -/
inductive RunError where
  /-- An instruction could not be executed. -/
  | faulted (fault : Fault)
  /-- The sink did not take a print. -/
  | output (failure : OutputFailure)
  /-- The instructions are no program. -/
  | malformed (mismatch : BracketMismatch)
deriving DecidableEq, Repr

namespace RunError

/-- The wording of a run error. -/
def message : RunError → String
  | faulted fault => fault.message
  | output failure => s!"Output error: {failure.message}"
  | malformed mismatch => mismatch.message

/-- The position of the instruction at fault, if the error came from one. -/
def position? : RunError → Option Nat
  | faulted fault => some fault.position
  | output _ | malformed _ => none

/-- The wordings of an error and of the causes behind it, outermost first. Only an output error has a
cause of its own. -/
def causes : RunError → List String
  | output failure => [(output failure).message, failure.message]
  | error => [error.message]

end RunError

/-- What a call that runs a program returns. -/
abbrev RunResult := Except RunError Halt

end Crosswire
