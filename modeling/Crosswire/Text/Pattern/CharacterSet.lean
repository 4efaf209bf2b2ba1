/-
Module: Crosswire.Text.Pattern.CharacterSet
Purpose: Sets of characters in square brackets. A set lists characters, ranges, named classes and further
  sets, and combines such lists by intersection, difference and symmetric difference. Reading one gives
  how deeply it is nested.
Imports: Crosswire.Text.Pattern.Escape
Main exports: Pattern.nesting, Pattern.readSet
-/
import Crosswire.Text.Pattern.Escape

namespace Crosswire.Pattern

/-- How deeply a list of parts is nested, given how deeply each part is: a list of two or more is one
deeper than its deepest part. -/
def nesting : List Nat → Nat
  | [] => 0
  | [depth] => depth
  | depth :: others => 1 + others.foldl Nat.max depth

/-- The names of classes that may stand in a set, between colons and square brackets. -/
def classNames : List String :=
  ["alnum", "alpha", "ascii", "blank", "cntrl", "digit", "graph", "lower", "print", "punct", "space",
    "upper", "word", "xdigit"]

/-- A set that is being read. -/
structure OpenSet where
  /-- Whether only hyphens have been read, which then stand for themselves. -/
  fresh : Bool
  /-- The nesting of the parts listed so far. -/
  parts : List Nat
  /-- The nesting of what stands to the left of an operator. -/
  left : Option Nat
deriving DecidableEq, Repr

namespace OpenSet

/-- List another part. -/
def push (set : OpenSet) (depth : Nat) : OpenSet :=
  { set with fresh := false, parts := depth :: set.parts }

/-- The nesting of all that was read, without the brackets. -/
def depth (set : OpenSet) : Nat :=
  match set.left with
  | none => nesting set.parts
  | some left => 1 + Nat.max left (nesting set.parts)

/-- Begin the list to the right of an operator. -/
def operate (set : OpenSet) : OpenSet :=
  ⟨false, [], some set.depth⟩

end OpenSet

/-- Begin a set behind its opening bracket. Among bytes nothing can be excluded: broken characters would
be what is left. -/
def openSet (settings : Settings) (text : List Char) : Option (OpenSet × List Char) :=
  match settings.skip text with
  | '^' :: rest => if settings.unicode then some (⟨true, [], none⟩, rest) else none
  | rest => some (⟨true, [], none⟩, rest)

/-- Read a named class behind its opening bracket. Without a result the bracket opens a set. -/
def readClass? : List Char → Option (Bool × List Char)
  | ':' :: text =>
    let (excluded, named) := match text with
      | '^' :: rest => (true, rest)
      | _ => (false, text)
    let name := named.takeWhile (· != ':')
    match named.drop name.length with
    | ':' :: ']' :: rest => if classNames.contains (String.ofList name) then some (excluded, rest) else none
    | _ => none
  | _ => none

/-- Read one end of a range, or a part that is no range. -/
def readMember (settings : Settings) : List Char → Option (Atom × List Char)
  | [] => none
  | '\\' :: rest => readEscape settings rest
  | character :: rest => some (.literal character, rest)

/-- Whether a part can be listed in a set: no place is a character, and of bytes only ASCII is text. -/
def Atom.isMember (settings : Settings) : Atom → Bool
  | literal character => settings.unicode || character < '\x80'
  | oneOf => true
  | place => false

/-- Read a part of a set or a range of characters. A hyphen before a closing bracket or another hyphen
makes no range. -/
def readRange (settings : Settings) (text : List Char) : Option (List Char) :=
  match readMember settings text with
  | none => none
  | some (first, rest) =>
    let rest := settings.skip rest
    let alone := if first.isMember settings then some rest else none
    match rest with
    | '-' :: behind =>
      match settings.skip behind with
      | ']' :: _ | '-' :: _ => alone
      | behind =>
        match first, readMember settings behind with
        | .literal low, some (.literal high, rest) =>
          if low ≤ high && (Atom.literal high).isMember settings then some rest else none
        | _, _ => none
    | _ => alone

/-- Read sets up to the closing bracket of the outermost one; `outer` are the sets around the one that is
being read, innermost first. Every turn takes a character, so `fuel` need not exceed the length of the
text. -/
def readSets (settings : Settings) : Nat → List OpenSet → OpenSet → List Char → Option (Nat × List Char)
  | 0, _, _, _ => none
  | fuel + 1, outer, set, text =>
    match settings.skip text with
    | [] => none
    | '[' :: rest =>
      match readClass? rest with
      | some (excluded, rest) =>
        if excluded && !settings.unicode then none
        else readSets settings fuel outer (set.push 0) rest
      | none =>
        match openSet settings rest with
        | some (inner, rest) => readSets settings fuel (set :: outer) inner rest
        | none => none
    | ']' :: rest =>
      if set.fresh && set.parts.isEmpty then readSets settings fuel outer (set.push 0) rest
      else
        match outer with
        | [] => some (1 + set.depth, rest)
        | around :: others => readSets settings fuel others (around.push (1 + set.depth)) rest
    | '-' :: rest =>
      if set.fresh then readSets settings fuel outer { set.push 0 with fresh := true } rest
      else
        match rest with
        | '-' :: rest => readSets settings fuel outer set.operate rest
        | _ =>
          match readRange settings ('-' :: rest) with
          | some rest => readSets settings fuel outer (set.push 0) rest
          | none => none
    | '&' :: '&' :: rest => readSets settings fuel outer set.operate rest
    | '~' :: '~' :: rest => readSets settings fuel outer set.operate rest
    | rest =>
      match readRange settings rest with
      | some rest => readSets settings fuel outer (set.push 0) rest
      | none => none

/-- Read a set behind its opening bracket: how deeply it is nested, and what follows it. -/
def readSet (settings : Settings) (text : List Char) : Option (Nat × List Char) :=
  if !settings.knowsCase then none
  else
    match openSet settings text with
    | some (set, rest) => readSets settings (rest.length + 1) [] set rest
    | none => none

end Crosswire.Pattern
