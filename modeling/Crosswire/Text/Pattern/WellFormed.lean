/-
Module: Crosswire.Text.Pattern.WellFormed
Purpose: Which texts are patterns. A pattern is a choice between sequences of parts: characters, sets of
  characters, places and groups, each of which may be repeated. Nothing is matched here; a text only has
  to be such a pattern, and not to be nested too deeply.
Imports: Crosswire.Text.Pattern.CharacterSet, Crosswire.Text.Pattern.Group
Main exports: Pattern.Choice, Pattern.isWellFormed
-/
import Crosswire.Text.Pattern.CharacterSet
import Crosswire.Text.Pattern.Group

namespace Crosswire.Pattern

/-- A choice between sequences that is being read. -/
structure Choice where
  /-- The nesting of the sequences that are complete. -/
  complete : List Nat
  /-- The nesting of the parts of the last sequence, latest first; a change of settings, which cannot be
  repeated, has none. -/
  parts : List (Option Nat)
deriving DecidableEq, Repr

namespace Choice

/-- Nothing has been read yet. -/
def empty : Choice := ⟨[], []⟩

/-- Read another part. -/
def push (choice : Choice) (depth : Nat) : Choice :=
  { choice with parts := some depth :: choice.parts }

/-- Note a change of settings. -/
def noteChange (choice : Choice) : Choice :=
  { choice with parts := none :: choice.parts }

/-- Complete a sequence and begin the next. -/
def split (choice : Choice) : Choice :=
  ⟨nesting (choice.parts.map (·.getD 0)) :: choice.complete, []⟩

/-- Repeat the latest part, if there is one that can be repeated. -/
def repeatLast? (choice : Choice) : Option Choice :=
  match choice.parts with
  | some depth :: others => some { choice with parts := some (depth + 1) :: others }
  | _ => none

/-- How deeply the choice is nested. -/
def depth (choice : Choice) : Nat :=
  nesting choice.split.complete

end Choice

/-- Patterns may be nested this deep. -/
def maxNesting : Nat := 250

/-- How far a pattern has been read. -/
structure Progress where
  settings : Settings
  /-- The names of the groups so far. -/
  names : List String
  /-- The choices around the one that is being read, with the settings to go back to. -/
  outer : List (Settings × Choice)
  choice : Choice
deriving DecidableEq, Repr

namespace Progress

/-- The state before a pattern. -/
def start : Progress := ⟨{}, [], [], .empty⟩

/-- Read a part. -/
def push (progress : Progress) (depth : Nat) : Progress :=
  { progress with choice := progress.choice.push depth }

/-- Go into a group. -/
def enter (progress : Progress) (settings : Settings) : Progress :=
  { progress with
    settings
    outer := (progress.settings, progress.choice) :: progress.outer
    choice := .empty }

/-- Take what an opening parenthesis begins. No two groups have the same name. -/
def takeOpening? (progress : Progress) : Opening → Option Progress
  | .group settings => some (progress.enter settings)
  | .named name =>
    if progress.names.contains name then none
    else some { progress.enter progress.settings with names := name :: progress.names }
  | .change settings => some { progress with settings, choice := progress.choice.noteChange }

/-- Leave a group, if there is one to leave. -/
def leave? (progress : Progress) : Option Progress :=
  match progress.outer with
  | (settings, around) :: outer =>
    some { progress with settings, outer, choice := around.push (1 + progress.choice.depth) }
  | [] => none

/-- Read the next part, mark or parenthesis of a pattern, which begins with the given character. -/
def step? (progress : Progress) (character : Char) (rest : List Char) : Option (Progress × List Char) :=
  let settings := progress.settings
  let literal (rest : List Char) : Option (Progress × List Char) :=
    if settings.knowsCase then some (progress.push 0, rest) else none
  match character with
  | '(' =>
    match readOpening settings rest with
    | some (opening, rest) => (progress.takeOpening? opening).map (·, rest)
    | none => none
  | ')' => progress.leave?.map (·, rest)
  | '|' => some ({ progress with choice := progress.choice.split }, rest)
  | '[' => (readSet settings rest).map fun (depth, rest) => (progress.push depth, rest)
  | '?' | '*' | '+' =>
    let rest := match rest with
      | '?' :: rest => rest
      | _ => rest
    progress.choice.repeatLast?.map fun choice => ({ progress with choice }, rest)
  | '\x7b' => none
  | '\\' =>
    match readEscape settings rest with
    | some (.literal _, rest) => literal rest
    | some (_, rest) => some (progress.push 0, rest)
    | none => none
  | '.' => if settings.unicode then some (progress.push 0, rest) else none
  | '^' | '$' => some (progress.push 0, rest)
  | _ => literal rest

end Progress

/-- Read a pattern to its end. Every turn takes a character, so `fuel` need not exceed the length of the
text. -/
def readAll : Nat → Progress → List Char → Option Progress
  | 0, _, _ => none
  | fuel + 1, progress, text =>
    match progress.settings.skip text with
    | [] => some progress
    | character :: rest =>
      match progress.step? character rest with
      | some (next, rest) => readAll fuel next rest
      | none => none

/-- Whether a text is a pattern: every group is closed, and nothing is nested too deeply. Repetitions are
not counted in braces. -/
def isWellFormed (text : String) : Bool :=
  match readAll (text.length + 1) .start text.toList with
  | some progress => progress.outer.isEmpty && progress.choice.depth ≤ maxNesting
  | none => false

end Crosswire.Pattern
