/-
Module: Crosswire.Terminal
Purpose: Output as commands for a terminal. A look is switched on by a command for each color and each
  attribute before its character, and reset by one after it. The bytes of the commands go to a writer that
  takes a limited number of bytes and may take part of what it is offered: the first command that it does
  not take whole ends the print, and what was taken stays. A print whose commands were all taken is
  flushed once.
Imports: Crosswire.Sink
Main exports: Attribute, Style.attributes, Command, Command.bytes, Terminal, Writing, Writing.all,
  Writing.queue, Writing.print
-/
import Crosswire.Sink

namespace Crosswire

/-! ### Escape sequences -/

/-- The escape sequence that sets a graphic rendition. -/
def rendition (parameters : List Char) : List Char :=
  '\x1b' :: '[' :: parameters ++ ['m']

/-- The parameters of a color, with the decimal components behind the code of its place. -/
def Rgb.parameters (color : Rgb) (place : List Char) : List Char :=
  place ++ [';', '2', ';'] ++ Nat.toDigits 10 color.red.toNat ++
    ';' :: Nat.toDigits 10 color.green.toNat ++ ';' :: Nat.toDigits 10 color.blue.toNat

/-- The code that sets an intensity. -/
def Intensity.parameters : Intensity → List Char
  | bold => ['1']
  | normal => ['2', '2']
  | faint => ['2']

/-- The code that sets an underline; a double one is a variant of the single one. -/
def Underline.parameters : Underline → List Char
  | single => ['4']
  | double => ['4', ':', '2']
  | off => ['2', '4']

/-- The code that sets a blink. -/
def Blink.parameters : Blink → List Char
  | off => ['2', '5']
  | fast => ['6']
  | slow => ['5']

/-! ### Commands -/

/-- An attribute that a terminal is told to set. -/
inductive Attribute where
  | intensity (choice : Intensity)
  | underline (choice : Underline)
  | blink (choice : Blink)
  | strikethrough (on : Bool)
  | italic (on : Bool)
  /-- No look at all. -/
  | reset
deriving DecidableEq, Repr

/-- The code that sets an attribute. -/
def Attribute.parameters : Attribute → List Char
  | intensity choice => choice.parameters
  | underline choice => choice.parameters
  | blink choice => choice.parameters
  | strikethrough on => if on then ['9'] else ['2', '9']
  | italic on => if on then ['3'] else ['2', '3']
  | reset => ['0']

/-- The attributes of a look, one of each kind, in the order in which they are set. -/
def Style.attributes (style : Style) : List Attribute :=
  [.intensity style.intensity, .underline style.underline, .blink style.blink,
    .strikethrough style.strikethrough, .italic style.italic]

/-- One thing that a terminal is told to do. -/
inductive Command where
  | setForeground (color : Rgb)
  | setBackground (color : Rgb)
  | setAttribute (setting : Attribute)
  | print (character : Char)
deriving DecidableEq, Repr

/-- The text of a command: an escape sequence, or the character to print. -/
def Command.text : Command → List Char
  | setForeground color => rendition (color.parameters ['3', '8'])
  | setBackground color => rendition (color.parameters ['4', '8'])
  | setAttribute setting => rendition setting.parameters
  | print character => [character]

/-- The bytes of a command. -/
def Command.bytes (command : Command) : List UInt8 :=
  command.text.flatMap String.utf8EncodeChar

/-! ### The terminal sink -/

/-- A terminal over a writer that takes a limited number of bytes in all. -/
structure Terminal where
  /-- How many bytes the writer takes in all; unlimited if absent. -/
  capacity : Option Nat
  /-- What the writer reports when it takes no more. -/
  exhausted : OutputFailure
  /-- The numbers of the flushes that fail, counted from zero. -/
  failingFlushes : List Nat
  /-- The bytes taken so far. -/
  accepted : Array UInt8
  /-- How often the writer was flushed, failing flushes included. -/
  flushes : Nat

namespace Terminal

/-- A fresh terminal over a writer with the given capacity and failing flushes. -/
def limited (capacity : Option Nat) (failingFlushes : List Nat) : Terminal where
  capacity
  exhausted := .pipeClosed
  failingFlushes
  accepted := #[]
  flushes := 0

/-- A terminal that takes everything. -/
def unlimited : Terminal := limited none []

/-- A terminal over a full device, which takes nothing. -/
def full : Terminal :=
  { limited (some 0) [] with exhausted := .deviceFull }

instance : Inhabited Terminal := ⟨unlimited⟩

/-- The terminal when its writer has taken more bytes. -/
def taking (terminal : Terminal) (bytes : List UInt8) : Terminal :=
  { terminal with accepted := terminal.accepted ++ bytes }

end Terminal

/-! ### Writing -/

/-- Something written to a terminal, which may fail. What was taken before the failure stays taken. -/
abbrev Writing := ExceptT OutputFailure (StateM Terminal)

namespace Writing

/-- Offer bytes to the writer once. It takes as many of them as it has room for and says how many; a
writer without room fails. -/
def offer (bytes : List UInt8) : Writing Nat := ExceptT.mk fun terminal =>
  match terminal.capacity with
  | none => (.ok bytes.length, terminal.taking bytes)
  | some capacity =>
    let room := capacity - terminal.accepted.size
    if room = 0 then
      (.error terminal.exhausted, terminal)
    else
      (.ok (min room bytes.length), terminal.taking (bytes.take room))

/-- Offer bytes until the writer has taken all of them, or fails. -/
def all : List UInt8 → Writing Unit
  | [] => return
  | first :: rest => do
    match ← offer (first :: rest) with
    | 0 => throw (.system "failed to write whole buffer")
    | taken + 1 => all (rest.drop taken)
termination_by bytes => bytes.length
decreasing_by
  rw [List.length_drop, List.length_cons]
  omega

/-- Write commands one after the other, as long as none fails. -/
def queue (commands : List Command) : Writing Unit :=
  commands.forM fun command => all command.bytes

/-- Flush the writer. -/
def flush : Writing Unit := ExceptT.mk fun terminal =>
  let flushed := { terminal with flushes := terminal.flushes + 1 }
  if terminal.failingFlushes.contains terminal.flushes then
    (.error .flushFailed, flushed)
  else
    (.ok (), flushed)

/-- Write a character, between switching its look on and resetting it when it has one. -/
def character (styled : StyledChar) : Writing Unit :=
  match styled.style with
  | none => queue [.print styled.character]
  | some style => do
    queue [.setForeground style.foreground, .setBackground style.background]
    style.attributes.forM fun setting => queue [.setAttribute setting]
    queue [.print styled.character, .setAttribute .reset]

/-- Write the characters of one print, and flush the writer if all were written. -/
def print (characters : List StyledChar) : Writing Unit := do
  characters.forM character
  flush

end Writing

instance : Sink Terminal where
  write characters terminal := (Writing.print characters).run.run terminal

end Crosswire
