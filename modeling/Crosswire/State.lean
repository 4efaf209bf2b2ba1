/-
Module: Crosswire.State
Purpose: The state of a running program: accumulator, addressing mode, stacks and the styled-output
  flag. The mode routes push/pop and rotate to the two levels of the data area, always crosswise: in
  one-dimensional mode push and pop act on the stack of stacks and rotate acts on the value stack, in
  two-dimensional mode it is the other way round.
Imports: Crosswire.Stacks
Main exports: Mode, Routing, Mode.routing, State, Operation, State.perform
-/
import Crosswire.Stacks

namespace Crosswire

/-- The addressing mode. -/
inductive Mode where
  | oneD
  | twoD
deriving DecidableEq, Repr

/-- The levels that the mode-dependent instructions act on. -/
structure Routing where
  /-- Level of push and pop. -/
  pushPop : Level
  /-- Level of the two rotations. -/
  rotate : Level
deriving DecidableEq, Repr

/-- The routing of a mode. -/
def Mode.routing : Mode → Routing
  | oneD => ⟨.outer, .inner⟩
  | twoD => ⟨.inner, .outer⟩

/-- The state of a running program. -/
structure State where
  accumulator : Value
  mode : Mode
  area : Stacks
  /-- Whether output is styled; once set, it stays set. -/
  styled : Bool
deriving DecidableEq, Repr

namespace State

/-- The state in which every program starts. -/
def initial : State := ⟨.zero, .oneD, .single, false⟩

instance : Inhabited State := ⟨initial⟩

/-- Add a value at the back of the top stack. -/
def pushValue (state : State) (value : Value) : State :=
  { state with area := state.area.pushValue value }

/-- Take the value at the front of the top stack, if there is one. -/
def popValue? (state : State) : Option (Value × State) :=
  match state.area.popValue? with
  | some (value, area) => some (value, { state with area })
  | none => none

/-- Put a new empty stack on top. -/
def pushStack (state : State) : State :=
  { state with area := state.area.pushStack }

/-- Take the top stack off, unless it is the only one. -/
def popStack? (state : State) : Option (List Value × State) :=
  match state.area.popStack? with
  | some (stack, area) => some (stack, { state with area })
  | none => none

/-- Rotate one level by one place. -/
def rotate (state : State) (level : Level) (rotation : Rotation) : State :=
  { state with area := state.area.rotate level rotation }

end State

/-! ### Single operations on a state

Embedders may drive a state by hand. Each thing they can ask for is an `Operation`, and `perform`
answers it together with the state that follows. -/

/-- One request to a state. -/
inductive Operation where
  | pushValue (value : Value)
  | popValue
  | pushStack
  | popStack
  | rotate (level : Level) (rotation : Rotation)
  | setAccumulator (value : Value)
  | setMode (mode : Mode)
  | setStyled
deriving DecidableEq, Repr

/-- What a request answers. -/
inductive Reply where
  /-- The request has no answer. -/
  | done
  /-- The popped value, or nothing from an empty stack. -/
  | value (popped : Option Value)
  /-- The removed stack, or nothing when it was the only one. -/
  | stack (popped : Option (List Value))
deriving DecidableEq, Repr

/-- Carry out one request. A pop that finds nothing leaves the state alone. -/
def State.perform (state : State) : Operation → Reply × State
  | .pushValue value => (.done, state.pushValue value)
  | .popValue =>
    match state.popValue? with
    | some (value, rest) => (.value (some value), rest)
    | none => (.value none, state)
  | .pushStack => (.done, state.pushStack)
  | .popStack =>
    match state.popStack? with
    | some (stack, rest) => (.stack (some stack), rest)
    | none => (.stack none, state)
  | .rotate level rotation => (.done, state.rotate level rotation)
  | .setAccumulator value => (.done, { state with accumulator := value })
  | .setMode mode => (.done, { state with mode })
  | .setStyled => (.done, { state with styled := true })

end Crosswire
