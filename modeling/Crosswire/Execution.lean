/-
Module: Crosswire.Execution
Purpose: What a single instruction does. Executing an instruction changes the state and asks the
  machine to go on, to jump, to print or to stop; or it faults. The state is returned in every case,
  so that what a fault leaves behind is visible.
Imports: Crosswire.State, Crosswire.Bracket.Pairing
Main exports: Fault, Effect, execute
-/
import Crosswire.State
import Crosswire.Bracket.Pairing

namespace Crosswire

/-- Why an instruction could not be executed, with its position. -/
inductive Fault where
  /-- There was nothing to pop at this level. -/
  | stackUnderflow (position : Nat) (level : Level)
  /-- A jump was due, but the bracket has no partner in this direction. -/
  | jumpOutOfRange (position : Nat) (direction : Direction)
deriving DecidableEq, Repr

namespace Fault

/-- The position of the instruction that faulted. -/
def position : Fault → Nat
  | stackUnderflow position _ => position
  | jumpOutOfRange position _ => position

/-- The wording of a fault. -/
def message : Fault → String
  | stackUnderflow position level =>
    s!"Stack underflow at instruction {position}: nothing to pop from the {level.text}"
  | jumpOutOfRange position direction =>
    s!"Jump out of range at instruction {position}: no matching bracket scanning {direction.text}"

end Fault

/-- What the machine does after an instruction. -/
inductive Effect where
  /-- Go on with the next instruction. -/
  | next
  /-- Go on at this position, which holds a bracket. -/
  | jump (target : Nat)
  /-- Print this value, then go on with the next instruction. -/
  | print (value : Value)
  /-- Stop the program. -/
  | halt
deriving DecidableEq, Repr

/-- Combine the front value of the top stack with the accumulator, whatever the mode. -/
def combineOperand (combine : Value → Value → Value) (position : Nat) (state : State) :
    Except Fault Effect × State :=
  match state.popValue? with
  | some (operand, rest) =>
    (.ok .next, { rest with accumulator := combine operand state.accumulator })
  | none => (.error (.stackUnderflow position .inner), state)

/-- Take the jump from a bracket, if the bracket has a partner. -/
def takeJump (resolver : Resolver) (program : Program) (position : Nat) (direction : Direction)
    (state : State) : Except Fault Effect × State :=
  match resolver.resolve program position direction with
  | some target => (.ok (.jump target), state)
  | none => (.error (.jumpOutOfRange position direction), state)

/-- Execute an instruction as if it stood at `position`. The program is only looked at to find the
partner of a bracket. -/
def execute (instruction : Instruction) (position : Nat) (program : Program) (resolver : Resolver)
    (state : State) : Except Fault Effect × State :=
  match instruction with
  | .add => combineOperand Value.add position state
  | .decrement => (.ok .next, { state with accumulator := state.accumulator.decrement })
  | .nand => combineOperand Value.nand position state
  | .zero => (.ok .next, { state with accumulator := .zero })
  | .print => (.ok (.print state.accumulator), state)
  | .rotateRight => (.ok .next, state.rotate state.mode.routing.rotate .right)
  | .rotateLeft => (.ok .next, state.rotate state.mode.routing.rotate .left)
  | .push =>
    match state.mode.routing.pushPop with
    | .inner => (.ok .next, state.pushValue state.accumulator)
    | .outer => (.ok .next, state.pushStack)
  | .pop =>
    match state.mode.routing.pushPop with
    | .inner => combineOperand (fun operand _ => operand) position state
    | .outer =>
      match state.popStack? with
      | some (_, rest) => (.ok .next, rest)
      | none => (.error (.stackUnderflow position .outer), state)
  | .pushTrue => (.ok .next, state.pushValue (.boolean true))
  | .pushFalse => (.ok .next, state.pushValue (.boolean false))
  | .discourage => (.ok .next, { state with styled := true })
  | .modeOneD => (.ok .next, { state with mode := .oneD })
  | .modeTwoD => (.ok .next, { state with mode := .twoD })
  | .halt => (.ok .halt, state)
  | .loopStart =>
    if state.accumulator.isTruthy then (.ok .next, state)
    else takeJump resolver program position .forward state
  | .loopEnd =>
    if state.accumulator.isTruthy then takeJump resolver program position .backward state
    else (.ok .next, state)

end Crosswire
