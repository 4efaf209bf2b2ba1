/-
Module: Crosswire.Text.ControlSequence
Purpose: What is left of a text when it is written to something that is no terminal. Control characters
  and the sequences that they introduce are left out; white space is kept, also inside a sequence.
  White space inside a sequence suspends it: what follows is shown as if there were no sequence, up to
  the next control character, where the sequence goes on.
Main exports: SequenceState, SequenceState.next, Shown, Shown.step, withoutControls
-/

namespace Crosswire

/-- Where a text stands in a control sequence. -/
inductive SequenceState where
  /-- Outside of all sequences. -/
  | ground
  /-- After the escape character. -/
  | escape
  /-- After the escape character and intermediate characters. -/
  | escapeIntermediate
  /-- In a control sequence proper, behind `[`. -/
  | control
  /-- At the beginning of a device control string, behind `P`. -/
  | deviceEntry
  /-- In the parameters of a device control string. -/
  | deviceParameter
  /-- In the intermediate characters of a device control string. -/
  | deviceIntermediate
  /-- In an operating system command, behind `]`. The bell ends it. -/
  | command
  /-- In the body of a device control string, or in a string that no one interprets. -/
  | body
deriving DecidableEq, Repr

namespace SequenceState

/-- The state after an ASCII character. The escape character begins a new sequence everywhere, and the
characters for cancelling and substituting end every sequence. -/
def next (state : SequenceState) (character : Char) : SequenceState :=
  if character = '\x1b' then escape
  else if character = '\x18' ∨ character = '\x1a' then ground
  else
    match state with
    | ground => ground
    | escape =>
      if character < ' ' ∨ character = '\x7f' then escape
      else if character < '0' then escapeIntermediate
      else
        match character with
        | '[' => control
        | ']' => command
        | 'P' => deviceEntry
        | 'X' | '^' | '_' => body
        | _ => ground
    | escapeIntermediate => if character < '0' ∨ character = '\x7f' then escapeIntermediate else ground
    | control => if character < '@' ∨ character = '\x7f' then control else ground
    | deviceEntry =>
      if character < ' ' ∨ character = '\x7f' then deviceEntry
      else if character < '0' then deviceIntermediate
      else if character < '@' then deviceParameter
      else body
    | deviceParameter =>
      if character < ' ' ∨ character = '\x7f' then deviceParameter
      else if character < '0' then deviceIntermediate
      else if character < '<' then deviceParameter
      else body
    | deviceIntermediate =>
      if character < '0' ∨ character = '\x7f' then deviceIntermediate else body
    | command => if character = '\x07' then ground else command
    | body => body

/-- The state after a character beyond ASCII. Of all sequences only a body takes notice, and ends at the
string terminator, even if that is only a byte of the character. -/
def nextBeyond (state : SequenceState) (character : Char) : SequenceState :=
  if state = body ∧ 0x9c ∈ String.utf8EncodeChar character then ground else state

/-- Whether control characters keep their effect inside a sequence. -/
def obeysControls : SequenceState → Bool
  | ground | escape | escapeIntermediate | control => true
  | deviceEntry | deviceParameter | deviceIntermediate | command | body => false

end SequenceState

/-- The control characters that move to another place of the page. -/
def isLayout (character : Char) : Bool :=
  character == '\t' || character == '\n' || character == '\x0c' || character == '\r'

/-- Whether an ASCII character shows outside of sequences. -/
def isShown (character : Char) : Bool :=
  isLayout character || (' ' ≤ character && character ≤ '~')

/-- How far a text has been shown. -/
structure Shown where
  /-- The sequence that the text is in. -/
  state : SequenceState
  /-- Whether the last character was shown, so that the sequence is suspended. -/
  showing : Bool
deriving DecidableEq, Repr

namespace Shown

/-- Whether a character is shown, and how things stand after it. -/
def step (shown : Shown) (character : Char) : Bool × Shown :=
  if character < '\x80' then
    let visible :=
      if shown.showing || shown.state = .ground then isShown character
      else shown.state.obeysControls && isLayout character
    if visible then (true, ⟨shown.state, true⟩) else (false, ⟨shown.state.next character, false⟩)
  else if shown.showing || shown.state = .ground then (true, ⟨.ground, true⟩)
  else (false, ⟨shown.state.nextBeyond character, false⟩)

/-- The characters of a text that are shown. -/
def keep (shown : Shown) : List Char → List Char
  | [] => []
  | character :: rest =>
    match shown.step character with
    | (true, next) => character :: next.keep rest
    | (false, next) => next.keep rest

end Shown

/-- A text without control characters and control sequences. -/
def withoutControls (text : String) : String :=
  String.ofList (Shown.keep ⟨.ground, false⟩ text.toList)

end Crosswire
