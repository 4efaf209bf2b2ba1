/-
Module: Crosswire.Text.Pattern.Escape
Purpose: The parts of a pattern that stand for themselves or follow a backslash. How they are read depends
  on the settings in force. A pattern matches text, and it is read without tables of letters and digits:
  what would match a broken character, and what would need such a table, is refused.
Imports: Crosswire.Text.Unsigned, Crosswire.Text.WhiteSpace
Main exports: Pattern.Settings, Pattern.Atom, Pattern.readEscape
-/
import Crosswire.Text.Unsigned
import Crosswire.Text.WhiteSpace

namespace Crosswire.Pattern

/-- The settings that decide how a pattern is read. -/
structure Settings where
  /-- White space and comments are skipped. -/
  spaced : Bool := false
  /-- Letters match in either case. -/
  foldsCase : Bool := false
  /-- A pattern speaks about characters, not about bytes. -/
  unicode : Bool := true
deriving DecidableEq, Repr

namespace Settings

/-- Skip white space, and comments from a number sign to the end of the line. -/
def skipComments (inComment : Bool) : List Char → List Char
  | [] => []
  | character :: rest =>
    if inComment then skipComments (character != '\n') rest
    else if isWhiteSpace character then skipComments false rest
    else if character = '#' then skipComments true rest
    else character :: rest

/-- Skip what the settings say means nothing. -/
def skip (settings : Settings) (text : List Char) : List Char :=
  if settings.spaced then skipComments false text else text

/-- Whether case can be told apart or ignored without a table of letters: bytes fold their case by
arithmetic, characters do not. -/
def knowsCase (settings : Settings) : Bool :=
  !settings.foldsCase || !settings.unicode

end Settings

/-- What a single part of a pattern is. -/
inductive Atom where
  /-- A character that stands for itself. -/
  | literal (character : Char)
  /-- One of several characters. -/
  | oneOf
  /-- A condition on the place. -/
  | place
deriving DecidableEq, Repr

/-- Read hexadecimal digits, continuing a number. -/
def readHex (settings : Settings) (value : Nat) : Nat → List Char → Option (Nat × List Char)
  | 0, text => some (value, text)
  | digits + 1, text =>
    match settings.skip text with
    | [] => none
    | character :: rest =>
      match hexValue? character with
      | some digit => readHex settings (16 * value + digit) digits rest
      | none => none

/-- Read the number of a character with so many hexadecimal digits. -/
def readCode (settings : Settings) (digits : Nat) (text : List Char) : Option (Char × List Char) :=
  match readHex settings 0 digits text with
  | some (value, rest) => if value.isValidChar then some (Char.ofNat value, rest) else none
  | none => none

/-- The control character that a letter behind a backslash stands for. -/
def controlCharacter? : Char → Option Char
  | 'a' => some '\x07'
  | 'f' => some '\x0c'
  | 'n' => some '\n'
  | 'r' => some '\r'
  | 't' => some '\t'
  | 'v' => some '\x0b'
  | _ => none

/-- Whether a character loses its meaning behind a backslash: all of ASCII but letters, digits and the
angle brackets. -/
def isEscapable (character : Char) : Bool :=
  character < '\x80' && !character.isAlphanum && character != '<' && character != '>'

/-- Read what follows a backslash. A byte above the ASCII range is no text, and digits, spaces and word
characters are known among bytes only, as are the places where words begin or end. -/
def readEscape (settings : Settings) : List Char → Option (Atom × List Char)
  | [] => none
  | character :: rest =>
    let code (digits : Nat) : Option (Atom × List Char) :=
      (readCode settings digits rest).map fun (named, rest) => (.literal named, rest)
    match character with
    | 'x' =>
      match readCode settings 2 rest with
      | some (named, rest) =>
        if settings.unicode || named < '\x80' then some (.literal named, rest) else none
      | none => none
    | 'u' => code 4
    | 'U' => code 8
    | 'd' | 's' | 'w' => if settings.unicode then none else some (.oneOf, rest)
    | 'b' | 'B' | '<' | '>' => if settings.unicode then none else some (.place, rest)
    | 'A' | 'z' => some (.place, rest)
    | _ =>
      match controlCharacter? character with
      | some control => some (.literal control, rest)
      | none => if isEscapable character then some (.literal character, rest) else none

end Crosswire.Pattern
