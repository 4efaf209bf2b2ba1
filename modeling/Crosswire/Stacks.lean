/-
Module: Crosswire.Stacks
Purpose: The data area, a stack of value stacks that always holds at least one stack. Each value stack
  is a queue: values enter at its back and leave at its front. Either level can be rotated by one.
Imports: Crosswire.Value
Main exports: Level, Rotation, rotateOnce, Stacks, Stacks.pushValue, Stacks.popValue?,
  Stacks.pushStack, Stacks.popStack?, Stacks.rotate, Stacks.toList
-/
import Crosswire.Value

namespace Crosswire

/-- One of the two levels of the data area. -/
inductive Level where
  /-- The sequence of stacks. -/
  | outer
  /-- The values of the top stack. -/
  | inner
deriving DecidableEq, Repr

/-- The word for a level in messages. -/
def Level.text : Level → String
  | outer => "stack of stacks"
  | inner => "value stack"

/-- The two ways of rotating a sequence by one place. -/
inductive Rotation where
  /-- Move the last element to the front. -/
  | right
  /-- Move the first element to the back. -/
  | left
deriving DecidableEq, Repr

/-- Rotate a sequence by one place. Sequences of fewer than two elements stay as they are. -/
def rotateOnce {α : Type} (rotation : Rotation) (elements : List α) : List α :=
  match rotation with
  | .right =>
    match elements.getLast? with
    | some last => last :: elements.dropLast
    | none => []
  | .left =>
    match elements with
    | first :: rest => rest ++ [first]
    | [] => []

@[simp] theorem length_rotateOnce {α : Type} (rotation : Rotation) (elements : List α) :
    (rotateOnce rotation elements).length = elements.length := by
  cases rotation with
  | right =>
    cases elements with
    | nil => rfl
    | cons first rest => simp [rotateOnce, List.getLast?_eq_some_getLast]
  | left => cases elements <;> simp [rotateOnce]

/-- A nonempty sequence of value stacks, top stack first. -/
structure Stacks where
  /-- The values of the top stack, next to pop first. -/
  top : List Value
  /-- The stacks under the top stack, nearest first. -/
  below : List (List Value)
deriving DecidableEq, Repr

namespace Stacks

/-- One empty stack. -/
def single : Stacks := ⟨[], []⟩

instance : Inhabited Stacks := ⟨single⟩

/-- All stacks, top stack first. -/
def toList (area : Stacks) : List (List Value) :=
  area.top :: area.below

/-- The number of stacks. -/
def depth (area : Stacks) : Nat :=
  area.below.length + 1

/-- Add a value at the back of the top stack. -/
def pushValue (area : Stacks) (value : Value) : Stacks :=
  { area with top := area.top ++ [value] }

/-- Take the value at the front of the top stack, if there is one. -/
def popValue? (area : Stacks) : Option (Value × Stacks) :=
  match area.top with
  | value :: rest => some (value, { area with top := rest })
  | [] => none

/-- Put a new empty stack on top. -/
def pushStack (area : Stacks) : Stacks :=
  ⟨[], area.toList⟩

/-- Take the top stack off, unless it is the only one. -/
def popStack? (area : Stacks) : Option (List Value × Stacks) :=
  match area.below with
  | next :: rest => some (area.top, ⟨next, rest⟩)
  | [] => none

/-- Rotate one level by one place. -/
def rotate (area : Stacks) (level : Level) (rotation : Rotation) : Stacks :=
  match level with
  | .outer =>
    match rotateOnce rotation area.toList with
    | top :: below => ⟨top, below⟩
    | [] => area
  | .inner => { area with top := rotateOnce rotation area.top }

/-! ### What each operation does to the list of stacks -/

@[simp] theorem length_toList (area : Stacks) : area.toList.length = area.depth := by
  simp [toList, depth]

@[simp] theorem toList_pushValue (area : Stacks) (value : Value) :
    (area.pushValue value).toList = (area.top ++ [value]) :: area.below := rfl

@[simp] theorem toList_pushStack (area : Stacks) :
    area.pushStack.toList = [] :: area.toList := rfl

/-- An outer rotation rotates the list of stacks. -/
@[simp] theorem toList_rotate_outer (area : Stacks) (rotation : Rotation) :
    (area.rotate .outer rotation).toList = rotateOnce rotation area.toList := by
  have size : (rotateOnce rotation area.toList).length = area.below.length + 1 := by
    simp [depth]
  unfold rotate
  cases rotated : rotateOnce rotation area.toList with
  | nil => simp [rotated] at size
  | cons top below => rfl

/-- An inner rotation rotates the top stack and touches no other. -/
@[simp] theorem toList_rotate_inner (area : Stacks) (rotation : Rotation) :
    (area.rotate .inner rotation).toList = rotateOnce rotation area.top :: area.below := rfl

end Stacks

end Crosswire
