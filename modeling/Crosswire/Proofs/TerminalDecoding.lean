/-
Module: Crosswire.Proofs.TerminalDecoding
Purpose: What a terminal is sent can be read back. A look is written as seven escape sequences, whose
  parameters end at the first `m`; the character behind them is followed by a reset. So a reader knows at
  every point what comes next, and recovers each character with its look, unless a character without a
  look is the escape character itself. Since every look is reset at once, no look reaches another
  character.
Imports: Crosswire.Text.Pieces, Crosswire.Proofs.TerminalWriting, Crosswire.Proofs.TokenSpans
Main exports: Unambiguous, decodeCharacters?, readStyle?_sequence, readCharacters?_terminalText,
  decodeCharacters?_encodeCharacters, reset_infix_of_escape, terminal_bytes_decodable
-/
import Crosswire.Text.Pieces
import Crosswire.Proofs.TerminalWriting
import Crosswire.Proofs.TokenSpans

namespace Crosswire

/-! ### Reading escape sequences -/

/-- Read an escape sequence that sets a graphic rendition: its parameters, and what follows it. -/
def readRendition? : List Char → Option (List Char × List Char)
  | '\x1b' :: '[' :: text =>
    match text.dropWhile (· ≠ 'm') with
    | _ :: rest => some (text.takeWhile (· ≠ 'm'), rest)
    | [] => none
  | _ => none

theorem readRendition?_rendition {parameters : List Char} (within : 'm' ∉ parameters)
    (rest : List Char) : readRendition? (rendition parameters ++ rest) = some (parameters, rest) := by
  have inside : ∀ character ∈ parameters, decide (character ≠ 'm') = true := by
    intro character member
    exact decide_eq_true fun same => within (same ▸ member)
  have text : rendition parameters ++ rest = '\x1b' :: '[' :: (parameters ++ 'm' :: rest) := by
    simp [rendition]
  rw [text, readRendition?, List.dropWhile_append_of_pos inside, List.takeWhile_append_of_pos inside]
  simp

/-- Read an escape sequence whose parameters mean something. -/
def readSetting? {α : Type} (interpret : List Char → Option α) (text : List Char) :
    Option (α × List Char) := do
  let (parameters, rest) ← readRendition? text
  let setting ← interpret parameters
  return (setting, rest)

theorem readSetting?_rendition {α : Type} {interpret : List Char → Option α}
    {parameters : List Char} {setting : α} (within : 'm' ∉ parameters)
    (meaning : interpret parameters = some setting) (rest : List Char) :
    readSetting? interpret (rendition parameters ++ rest) = some (setting, rest) := by
  simp [readSetting?, readRendition?_rendition within, meaning]

/-! ### Colors -/

theorem cutAt_of_not_mem {separator : Char} {piece : List Char} (inside : separator ∉ piece) :
    cutAt separator piece = [piece] := by
  induction piece with
  | nil => rfl
  | cons character rest ih =>
    have other : character ≠ separator := fun same => inside (same ▸ List.mem_cons_self)
    have others := ih fun member => inside (List.mem_cons_of_mem character member)
    rw [cutAt, if_neg other, others]

theorem cutAt_append_cons {separator : Char} {piece : List Char} (inside : separator ∉ piece)
    (rest : List Char) :
    cutAt separator (piece ++ separator :: rest) = piece :: cutAt separator rest := by
  induction piece with
  | nil => simp [cutAt]
  | cons character piece ih =>
    have other : character ≠ separator := fun same => inside (same ▸ List.mem_cons_self)
    have others := ih fun member => inside (List.mem_cons_of_mem character member)
    rw [List.cons_append, cutAt, if_neg other, others]

/-- The component of a color that decimal digits stand for. -/
def componentOf (digits : List Char) : UInt8 :=
  UInt8.ofNat (Nat.ofDigitChars 10 digits 0)

/-- The color that parameters behind the code of its place stand for. -/
def Rgb.ofParameters? (place parameters : List Char) : Option Rgb :=
  match cutAt ';' parameters with
  | [code, ['2'], red, green, blue] =>
    if code = place then some ⟨componentOf red, componentOf green, componentOf blue⟩ else none
  | _ => none

theorem componentOf_toDigits (component : UInt8) :
    componentOf (Nat.toDigits 10 component.toNat) = component := by
  rw [componentOf, Nat.ofDigitChars_ten_toDigits, UInt8.ofNat_toNat]

theorem not_mem_toDigits {character : Char} (other : character.isDigit = false) (number : Nat) :
    character ∉ Nat.toDigits 10 number := by
  intro member
  have digit := Nat.isDigit_of_mem_toDigits (by decide) (by decide) member
  rw [other] at digit
  cases digit

theorem Rgb.ofParameters?_parameters {place : List Char} (single : ';' ∉ place) (color : Rgb) :
    ofParameters? place (color.parameters place) = some color := by
  have digits (number : Nat) : ';' ∉ Nat.toDigits 10 number := not_mem_toDigits rfl number
  have cut : cutAt ';' (color.parameters place) =
      [place, ['2'], Nat.toDigits 10 color.red.toNat, Nat.toDigits 10 color.green.toNat,
        Nat.toDigits 10 color.blue.toNat] := by
    have inside : ';' ∉ ['2'] := by decide
    have two (rest : List Char) : cutAt ';' ('2' :: ';' :: rest) = ['2'] :: cutAt ';' rest :=
      cutAt_append_cons inside rest
    simp only [parameters, List.append_assoc, List.cons_append, List.nil_append,
      cutAt_append_cons single, two, cutAt_append_cons (digits _), cutAt_of_not_mem (digits _)]
  simp only [ofParameters?, cut, if_true, componentOf_toDigits]

theorem readSetting?_color {place : List Char} (single : ';' ∉ place) (within : 'm' ∉ place)
    (color : Rgb) (rest : List Char) :
    readSetting? (Rgb.ofParameters? place) (rendition (color.parameters place) ++ rest) =
      some (color, rest) := by
  have digits (number : Nat) : 'm' ∉ Nat.toDigits 10 number := not_mem_toDigits rfl number
  have outside : 'm' ∉ color.parameters place := by
    simp [Rgb.parameters, within, digits]
  exact readSetting?_rendition outside (Rgb.ofParameters?_parameters single color) rest

/-! ### Attributes -/

/-- The choice of an attribute that has these parameters. -/
def choiceOf? {α : Type} (code : α → List Char) (choices : List α) (parameters : List Char) :
    Option α :=
  choices.find? (code · = parameters)

/-- The codes of the two choices of a switch. -/
def switchCode (on off : List Char) (choice : Bool) : List Char :=
  if choice then on else off

/-- Read a look: colors first, then the five attributes. -/
def readStyle? (text : List Char) : Option (Style × List Char) := do
  let (foreground, text) ← readSetting? (Rgb.ofParameters? ['3', '8']) text
  let (background, text) ← readSetting? (Rgb.ofParameters? ['4', '8']) text
  let (intensity, text) ← readSetting? (choiceOf? Intensity.parameters [.bold, .normal, .faint]) text
  let (underline, text) ← readSetting? (choiceOf? Underline.parameters [.single, .double, .off]) text
  let (blink, text) ← readSetting? (choiceOf? Blink.parameters [.off, .fast, .slow]) text
  let (strikethrough, text) ←
    readSetting? (choiceOf? (switchCode ['9'] ['2', '9']) [true, false]) text
  let (italic, text) ← readSetting? (choiceOf? (switchCode ['3'] ['2', '3']) [true, false]) text
  return ({ foreground, background, intensity, underline, blink, strikethrough, italic }, text)

theorem readSetting?_intensity (intensity : Intensity) (rest : List Char) :
    readSetting? (choiceOf? Intensity.parameters [.bold, .normal, .faint])
      (rendition intensity.parameters ++ rest) = some (intensity, rest) := by
  cases intensity <;> rfl

theorem readSetting?_underline (underline : Underline) (rest : List Char) :
    readSetting? (choiceOf? Underline.parameters [.single, .double, .off])
      (rendition underline.parameters ++ rest) = some (underline, rest) := by
  cases underline <;> rfl

theorem readSetting?_blink (blink : Blink) (rest : List Char) :
    readSetting? (choiceOf? Blink.parameters [.off, .fast, .slow])
      (rendition blink.parameters ++ rest) = some (blink, rest) := by
  cases blink <;> rfl

theorem readSetting?_switch {on off : List Char} (different : on ≠ off) (within : 'm' ∉ on ++ off)
    (choice : Bool) (rest : List Char) :
    readSetting? (choiceOf? (switchCode on off) [true, false])
      (rendition (if choice then on else off) ++ rest) = some (choice, rest) := by
  apply readSetting?_rendition
  · intro member
    cases choice <;> exact within (List.mem_append.2 (by simp_all))
  · cases choice <;> simp [choiceOf?, switchCode, different]

theorem readStyle?_sequence (style : Style) (rest : List Char) :
    readStyle? (style.sequence ++ rest) = some (style, rest) := by
  have foreground : ';' ∉ ['3', '8'] ∧ 'm' ∉ ['3', '8'] := by decide
  have background : ';' ∉ ['4', '8'] ∧ 'm' ∉ ['4', '8'] := by decide
  have strikethrough : ['9'] ≠ ['2', '9'] ∧ 'm' ∉ ['9'] ++ ['2', '9'] := by decide
  have italic : ['3'] ≠ ['2', '3'] ∧ 'm' ∉ ['3'] ++ ['2', '3'] := by decide
  simp only [readStyle?, Style.sequence, Style.attributes, Command.text, Attribute.parameters,
    List.flatMap_cons, List.flatMap_nil, List.append_nil, List.append_assoc,
    readSetting?_color foreground.1 foreground.2, readSetting?_color background.1 background.2,
    readSetting?_intensity, readSetting?_underline, readSetting?_blink,
    readSetting?_switch strikethrough.1 strikethrough.2, readSetting?_switch italic.1 italic.2,
    Option.bind_eq_bind, Option.bind_some]
  rfl

/-! ### Characters -/

/-- A character without a look is not mistaken for the beginning of a look. -/
def Unambiguous (characters : List StyledChar) : Prop :=
  ∀ styled ∈ characters, styled.style = none → styled.character ≠ '\x1b'

/-- Read a character: with its look in front and the reset behind it, or by itself. -/
def readStyled? : List Char → Option (StyledChar × List Char)
  | [] => none
  | first :: rest =>
    if first = '\x1b' then do
      let (style, text) ← readStyle? (first :: rest)
      match text with
      | [] => none
      | character :: text =>
        let ((), text) ← readSetting? (choiceOf? (fun _ => ['0']) [()]) text
        return (⟨character, some style⟩, text)
    else
      some (.plain first, rest)

/-- Read characters to the end of a text, at most so many. -/
def readCharacters? : Nat → List Char → Option (List StyledChar)
  | _, [] => some []
  | 0, _ :: _ => none
  | count + 1, character :: rest => do
    let (first, text) ← readStyled? (character :: rest)
    let others ← readCharacters? count text
    return first :: others

/-- The characters that some bytes make a terminal show, with their looks. -/
def decodeCharacters? (bytes : List UInt8) : Option (List StyledChar) := do
  let text ← bytes.toByteArray.utf8Decode?
  readCharacters? text.size text.toList

theorem readStyled?_sequence {styled : StyledChar}
    (clear : styled.style = none → styled.character ≠ '\x1b') (rest : List Char) :
    readStyled? (styled.sequence ++ rest) = some (styled, rest) := by
  obtain ⟨character, look⟩ := styled
  cases look with
  | none => exact if_neg (clear rfl)
  | some style =>
    have reset : readSetting? (choiceOf? (fun _ => ['0']) [()]) (rendition ['0'] ++ rest) =
        some ((), rest) := by
      apply readSetting?_rendition
      · decide
      · rfl
    have read := readStyle?_sequence style (character :: (rendition ['0'] ++ rest))
    have text : StyledChar.sequence ⟨character, some style⟩ ++ rest =
        style.sequence ++ character :: (rendition ['0'] ++ rest) := by
      simp [StyledChar.sequence]
    -- Whatever the look, its sequence begins with an escape, which is what the reader decides by.
    have begins : ∃ more, style.sequence ++ character :: (rendition ['0'] ++ rest) = '\x1b' :: more :=
      ⟨_, rfl⟩
    obtain ⟨more, begins⟩ := begins
    rw [begins] at read
    rw [text, begins, readStyled?, if_pos rfl, read]
    simp only [Option.bind_eq_bind, Option.bind_some, reset]
    rfl

theorem readCharacters?_terminalText {characters : List StyledChar}
    (clear : Unambiguous characters) {count : Nat} (enough : characters.length ≤ count) :
    readCharacters? count (terminalText characters) = some characters := by
  induction characters generalizing count with
  | nil => cases count <;> rfl
  | cons styled later ih =>
    obtain ⟨first, others⟩ := List.forall_mem_cons.1 clear
    obtain ⟨left, rfl⟩ := Nat.exists_eq_add_one_of_ne_zero (Nat.ne_zero_of_lt enough)
    have text : terminalText (styled :: later) = styled.sequence ++ terminalText later := rfl
    have read := readStyled?_sequence first (terminalText later)
    have onward := ih others (Nat.le_of_succ_le_succ enough)
    cases begins : styled.sequence with
    | nil => exact absurd begins styled.sequence_ne_nil
    | cons character more =>
      rw [begins, List.cons_append] at read
      rw [text, begins, List.cons_append, readCharacters?, read]
      simp only [Option.bind_eq_bind, Option.bind_some, onward]
      rfl

theorem length_le_terminalText (characters : List StyledChar) :
    characters.length ≤ (terminalText characters).length := by
  induction characters with
  | nil => exact Nat.le_refl 0
  | cons styled later ih =>
    have some := List.length_pos_iff.2 styled.sequence_ne_nil
    have text : terminalText (styled :: later) = styled.sequence ++ terminalText later := rfl
    rw [text, List.length_append, List.length_cons]
    omega

/-- Reading the bytes of a print gives its characters back, with their looks. -/
theorem decodeCharacters?_encodeCharacters {characters : List StyledChar}
    (clear : Unambiguous characters) :
    decodeCharacters? (encodeCharacters characters) = some characters := by
  have text : (encodeCharacters characters).toByteArray.utf8Decode? =
      some (terminalText characters).toArray := List.utf8Decode?_utf8Encode
  rw [decodeCharacters?, text]
  exact readCharacters?_terminalText clear (length_le_terminalText characters)

/-! ### Resets -/

/-- The bytes of the escape sequence that ends a look. -/
def resetBytes : List UInt8 := [0x1b, 0x5b, 0x30, 0x6d]

theorem encodeCharacters_single (character : Char) :
    encodeCharacters [.plain character] = String.utf8EncodeChar character :=
  (encodeCharacters_plain [character]).trans (List.flatMap_singleton _ _)

/-- The bytes of a character with a look end with the reset. -/
theorem encodeCharacters_styled (character : Char) (style : Style) :
    encodeCharacters [⟨character, some style⟩] =
      (style.sequence ++ [character]).flatMap String.utf8EncodeChar ++ resetBytes := by
  have reset : (rendition ['0']).flatMap String.utf8EncodeChar = resetBytes := by decide
  simp only [encodeCharacters, terminalText, StyledChar.sequence, List.flatMap_cons,
    List.flatMap_nil, List.append_nil, List.flatMap_append, reset, List.append_assoc]

/-- The code of the escape character occurs in the bytes of no other character. -/
theorem eq_escape_of_mem {character : Char} (member : 0x1b ∈ String.utf8EncodeChar character) :
    character = '\x1b' := by
  rcases Nat.lt_or_ge character.toNat 128 with ascii | long
  · rw [utf8EncodeChar_of_ascii ascii, List.mem_singleton] at member
    have code := congrArg UInt8.toNat member
    rw [UInt8.toNat_ofNat', Nat.mod_eq_of_lt (Nat.lt_trans ascii (by decide))] at code
    exact Char.toNat_inj.1 code.symm
  · exact absurd (le_toNat_of_mem_utf8EncodeChar long member) (by decide)

theorem reset_suffix_of_escape {styled : StyledChar}
    (clear : styled.style = none → styled.character ≠ '\x1b') {first rest : List UInt8}
    (split : encodeCharacters [styled] = first ++ 0x1b :: rest) : resetBytes <:+ 0x1b :: rest := by
  obtain ⟨character, look⟩ := styled
  cases look with
  | none =>
    have member : 0x1b ∈ encodeCharacters [.plain character] := by
      rw [show encodeCharacters [.plain character] = _ from split]
      exact List.mem_append_right first List.mem_cons_self
    rw [encodeCharacters_single] at member
    exact absurd (eq_escape_of_mem member) (clear rfl)
  | some style =>
    rw [encodeCharacters_styled] at split
    rcases List.append_eq_append_iff.1 split with ⟨part, -, within⟩ | ⟨part, -, before⟩
    · -- Within the reset, only its first byte is an escape.
      cases part with
      | nil => exact ⟨[], within⟩
      | cons byte part =>
        obtain ⟨-, others⟩ := List.cons.inj within
        have member : 0x1b ∈ [0x5b, 0x30, (0x6d : UInt8)] := by
          rw [others]
          exact List.mem_append_right part List.mem_cons_self
        exact absurd member (by decide)
    · exact ⟨part, before.symm⟩

/-- Behind every escape in the bytes of some characters there is a reset. -/
theorem reset_infix_of_escape {characters : List StyledChar} (clear : Unambiguous characters)
    {first rest : List UInt8} (split : encodeCharacters characters = first ++ 0x1b :: rest) :
    resetBytes <:+: 0x1b :: rest := by
  induction characters generalizing first rest with
  | nil => exact absurd split.symm (List.append_ne_nil_of_right_ne_nil _ (List.cons_ne_nil _ _))
  | cons styled later ih =>
    obtain ⟨here, others⟩ := List.forall_mem_cons.1 clear
    have bytes : encodeCharacters (styled :: later) =
        encodeCharacters [styled] ++ encodeCharacters later := encodeCharacters_append [styled] later
    rw [bytes] at split
    rcases List.append_eq_append_iff.1 split with ⟨part, -, behind⟩ | ⟨part, own, behind⟩
    · exact ih others behind
    · cases part with
      | nil =>
        have begins : encodeCharacters later = [] ++ 0x1b :: rest := behind.symm
        exact ih others begins
      | cons byte part =>
        rw [List.cons_append] at behind
        obtain ⟨rfl, rfl⟩ := List.cons.inj behind
        have own := reset_suffix_of_escape here own
        exact own.isInfix.trans (List.prefix_append _ _).isInfix

/-! ### What is written -/

/-- The bytes that a print writes to a terminal determine its characters and their looks, as long as no
character without a look is the escape character. The bytes of a character with a look end with a reset,
so that between any escape and a later character without a look there is a reset. -/
theorem terminal_bytes_decodable (characters : List StyledChar) (clear : Unambiguous characters) :
    let written := fun print : List StyledChar =>
      (Sink.write print Terminal.unlimited).2.accepted.toList
    decodeCharacters? (written characters) = some characters ∧
    (∀ others, Unambiguous others → written others = written characters → others = characters) ∧
    ∀ before styled after, characters = before ++ styled :: after →
      written characters = written before ++ written [styled] ++ written after ∧
      (styled.style.isSome → resetBytes <:+ written [styled]) ∧
      (styled.style = none → written [styled] = String.utf8EncodeChar styled.character ∧
        ∀ first rest, written before = first ++ 0x1b :: rest → resetBytes <:+: 0x1b :: rest) := by
  intro written
  have bytes (print : List StyledChar) : written print = encodeCharacters print := by
    have sent := Terminal.write_eq_send print .unlimited
    rw [Terminal.send_of_unlimited rfl] at sent
    simp only [written, sent, Writing.flush_snd, Terminal.toList_accepted_taking]
    rfl
  simp only [bytes]
  have decoded := decodeCharacters?_encodeCharacters clear
  refine ⟨decoded, ?_, ?_⟩
  · intro others clearToo same
    have decodedToo := decodeCharacters?_encodeCharacters clearToo
    rw [same, decoded] at decodedToo
    exact (Option.some.inj decodedToo).symm
  · rintro before styled after rfl
    refine ⟨?_, ?_, ?_⟩
    · rw [← encodeCharacters_append, ← encodeCharacters_append, List.append_assoc]
      rfl
    · intro looks
      obtain ⟨character, look⟩ := styled
      obtain ⟨style, rfl⟩ := Option.isSome_iff_exists.1 looks
      rw [encodeCharacters_styled]
      exact List.suffix_append _ _
    · intro plain
      obtain ⟨character, look⟩ := styled
      obtain rfl : look = none := plain
      refine ⟨encodeCharacters_single character, ?_⟩
      intro first rest split
      have clearBefore : Unambiguous before := fun styled member =>
        clear styled (List.mem_append_left _ member)
      exact reset_infix_of_escape clearBefore split

/-- A digit, an escape character with a look, and an `m` are read back from what they write. -/
theorem terminal_bytes_decodable_escape :
    let style : Style := ⟨⟨255, 0, 16⟩, ⟨1, 2, 3⟩, .bold, .double, .off, true, false⟩
    let characters := [.plain '7', ⟨'\x1b', some style⟩, .plain 'm']
    Unambiguous characters ∧
      decodeCharacters? (Sink.write characters Terminal.unlimited).2.accepted.toList =
        some characters := by
  intro style characters
  have clear : Unambiguous characters := by
    unfold Unambiguous
    decide
  exact ⟨clear, (terminal_bytes_decodable characters clear).1⟩

end Crosswire
