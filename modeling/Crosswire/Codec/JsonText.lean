/-
Module: Crosswire.Codec.JsonText
Purpose: The JSON form of values and instructions. A variant with a payload is an object with the one
  key that names it, a variant without one is its name as a string; a list is an array, written
  without blanks. Reading accepts blanks between tokens, escapes in names, and `null` as the payload
  of a variant that has none. A text that cannot be read is incomplete, ill-formed or of the wrong
  shape, and the first thing that is wrong with it, from the left, decides which.
Imports: Crosswire.Codec.Decimal, Crosswire.Instruction, Crosswire.Text.Unsigned, Crosswire.Value
Main exports: JsonText.DecodeError, JsonText.writeValue, JsonText.writeInstruction, JsonText.writeList,
  JsonText.readValue, JsonText.readInstruction, JsonText.readList, JsonText.decode
-/
import Crosswire.Codec.Decimal
import Crosswire.Instruction
import Crosswire.Text.Unsigned
import Crosswire.Value

namespace Crosswire.JsonText

/-- Why a text could not be read. -/
inductive DecodeError where
  /-- The text ends too early. -/
  | incomplete
  /-- The text is not JSON, or not the kind of token that must stand here. -/
  | illFormed
  /-- The text is JSON, but not of the shape asked for. -/
  | wrongShape
deriving DecidableEq, Repr

/-- Reads something from the front of a text and returns the rest. -/
abbrev Reader (α : Type) := List Char → Except DecodeError (α × List Char)

/-! ### Tokens -/

/-- The characters that may stand between tokens. -/
def isBlank (character : Char) : Bool :=
  character == ' ' || character == '\n' || character == '\t' || character == '\r'

/-- Drop blanks from the front of a text. -/
def skipBlanks (text : List Char) : List Char :=
  text.dropWhile isBlank

/-- Read exactly these characters. -/
def readExactly : List Char → Reader Unit
  | [], text => .ok ((), text)
  | _ :: _, [] => .error .incomplete
  | expected :: others, character :: rest =>
    if character = expected then readExactly others rest else .error .illFormed

/-- The character named by a backslash and this character, apart from code units. -/
def escaped? : Char → Option Char
  | '"' => some '"'
  | '\\' => some '\\'
  | '/' => some '/'
  | 'b' => some '\x08'
  | 'f' => some '\x0c'
  | 'n' => some '\n'
  | 'r' => some '\r'
  | 't' => some '\t'
  | _ => none

/-- Where reading stands inside a string. -/
inductive StringState where
  /-- Between characters. -/
  | plain
  /-- After a backslash. -/
  | escape
  /-- Inside a code unit of which `pending` digits are still to come; `high` is the leading surrogate
  that the unit has to complete. -/
  | unit (pending value : Nat) (high : Option Nat)
  /-- After a leading surrogate, before the backslash of its partner. -/
  | partnerBackslash (high : Nat)
  /-- After a leading surrogate and a backslash. -/
  | partnerEscape (high : Nat)
deriving DecidableEq, Repr

/-- Whether a text has fewer than `needed` bytes. -/
def shorterThan (needed : Nat) : List Char → Bool
  | [] => 0 < needed
  | character :: rest => character.utf8Size < needed && shorterThan (needed - character.utf8Size) rest

/-- What a complete code unit stands for: a character, or the first half of one. -/
def finishUnit (value : Nat) : Option Nat → Except DecodeError (Option Char × StringState)
  | none =>
    if 0xDC00 ≤ value ∧ value ≤ 0xDFFF then .error .illFormed
    else if 0xD800 ≤ value ∧ value ≤ 0xDBFF then .ok (none, .partnerBackslash value)
    else .ok (some (Char.ofNat value), .plain)
  | some high =>
    if 0xDC00 ≤ value ∧ value ≤ 0xDFFF then
      .ok (some (Char.ofNat (0x10000 + (high - 0xD800) * 0x400 + (value - 0xDC00))), .plain)
    else .error .illFormed

/-- One character of a string: what it adds to the content, and where reading stands after it. `rest` is
the text behind it, which matters only for telling a broken code unit from one cut short. -/
def stringStep (state : StringState) (character : Char) (rest : List Char) :
    Except DecodeError (Option Char × StringState) :=
  match state with
  | .plain =>
    if character = '\\' then .ok (none, .escape)
    else if character < ' ' then .error .illFormed
    else .ok (some character, .plain)
  | .escape =>
    if character = 'u' then .ok (none, .unit 4 0 none)
    else
      match escaped? character with
      | some meant => .ok (some meant, .plain)
      | none => .error .illFormed
  | .unit pending value high =>
    match hexValue? character with
    | some digit =>
      let value := 16 * value + digit
      if pending ≤ 1 then finishUnit value high else .ok (none, .unit (pending - 1) value high)
    | none =>
      if shorterThan pending (character :: rest) then .error .incomplete else .error .illFormed
  | .partnerBackslash high =>
    if character = '\\' then .ok (none, .partnerEscape high) else .error .illFormed
  | .partnerEscape high =>
    if character = 'u' then .ok (none, .unit 4 0 (some high)) else .error .illFormed

/-- Read the content of a string up to its closing quote, the opening quote being read already. -/
def readContent (state : StringState) : Reader (List Char)
  | [] => .error .incomplete
  | character :: rest =>
    if state = .plain ∧ character = '"' then .ok ([], rest)
    else
      match stringStep state character rest with
      | .error error => .error error
      | .ok (added, next) =>
        match readContent next rest with
        | .error error => .error error
        | .ok (content, rest) => .ok (added.toList ++ content, rest)

/-- Read the content of a string after its opening quote. -/
def readString : Reader String := fun text =>
  match readContent .plain text with
  | .ok (content, rest) => .ok (String.ofList content, rest)
  | .error error => .error error

/-! ### Numbers -/

/-- The number that decimal digits stand for. -/
def digitsValue (digits : List Char) : Nat :=
  digits.foldl (fun value digit => 10 * value + digitValue digit) 0

/-- Read one or more decimal digits. -/
def readDigits : Reader (List Char) := fun text =>
  match text.takeWhile Char.isDigit, text.dropWhile Char.isDigit with
  | [], [] => .error .incomplete
  | [], _ :: _ => .error .illFormed
  | digits, rest => .ok (digits, rest)

/-- Read the digits before the point: a lone zero, or digits that do not begin with zero. -/
def readWhole : Reader (List Char) := fun text =>
  match readDigits text with
  | .ok ('0' :: _ :: _, _) => .error .illFormed
  | other => other

/-- Read the digits behind a point, if there is a point. -/
def readFraction : Reader (Option (List Char))
  | '.' :: text =>
    match readDigits text with
    | .ok (digits, rest) => .ok (some digits, rest)
    | .error error => .error error
  | text => .ok (none, text)

/-- Read the sign and digits of an exponent behind its mark. -/
def readSignedDigits : Reader Int := fun text =>
  let (negative, digits) := match text with
    | '+' :: rest => (false, rest)
    | '-' :: rest => (true, rest)
    | _ => (false, text)
  match readDigits digits with
  | .ok (digits, rest) =>
    .ok (if negative then -(digitsValue digits : Int) else digitsValue digits, rest)
  | .error error => .error error

/-- Read an exponent, if there is one. -/
def readExponent : Reader (Option Int) := fun text =>
  match text with
  | 'e' :: rest | 'E' :: rest =>
    match readSignedDigits rest with
    | .ok (exponent, rest) => .ok (some exponent, rest)
    | .error error => .error error
  | _ => .ok (none, text)

/-- Read a number without its sign. A number too large for a double-precision number is refused. -/
def readUnsigned (negative : Bool) : Reader Decimal := fun text =>
  match readWhole text with
  | .error error => .error error
  | .ok (whole, rest) =>
    match readFraction rest with
    | .error error => .error error
    | .ok (fraction, rest) =>
      match readExponent rest with
      | .error error => .error error
      | .ok (exponent, rest) =>
        let decimal := Decimal.ofParts negative whole fraction exponent
        if decimal.isHuge then .error .illFormed else .ok (decimal, rest)

/-- Read a number. -/
def readNumber : Reader Decimal
  | '-' :: text => readUnsigned true text
  | text => readUnsigned false text

/-! ### Payloads -/

/-- What is wrong with a text that should begin with something else: it may be broken itself, and is of
the wrong shape if it is not. Arrays and objects are not read any further. -/
def unexpected (text : List Char) : DecodeError :=
  let shapeUnless {α : Type} (read : Except DecodeError α) : DecodeError :=
    match read with
    | .ok _ => .wrongShape
    | .error error => error
  match text with
  | 'n' :: rest => shapeUnless (readExactly ['u', 'l', 'l'] rest)
  | 't' :: rest => shapeUnless (readExactly ['r', 'u', 'e'] rest)
  | 'f' :: rest => shapeUnless (readExactly ['a', 'l', 's', 'e'] rest)
  | '"' :: rest => shapeUnless (readString rest)
  | '[' :: _ | '\x7b' :: _ => .wrongShape
  | character :: _ =>
    if character = '-' ∨ character.isDigit then shapeUnless (readNumber text) else .illFormed
  | [] => .incomplete

/-- Read `null`. -/
def readNull : Reader Unit := fun text =>
  match skipBlanks text with
  | 'n' :: rest => readExactly ['u', 'l', 'l'] rest
  | other => .error (unexpected other)

/-- Read `true` or `false`. -/
def readTruth : Reader Bool := fun text =>
  let valued (truth : Bool) : Except DecodeError (Unit × List Char) → Except DecodeError (Bool × List Char)
    | .ok ((), rest) => .ok (truth, rest)
    | .error error => .error error
  match skipBlanks text with
  | 't' :: rest => valued true (readExactly ['r', 'u', 'e'] rest)
  | 'f' :: rest => valued false (readExactly ['a', 'l', 's', 'e'] rest)
  | other => .error (unexpected other)

/-- Read a signed 32-bit word. -/
def readWord : Reader Int32 := fun text =>
  match skipBlanks text with
  | character :: rest =>
    if character = '-' ∨ character.isDigit then
      match readNumber (character :: rest) with
      | .error error => .error error
      | .ok (decimal, rest) =>
        match decimal.toInt? with
        | some number =>
          if Int32.minValue.toInt ≤ number ∧ number ≤ Int32.maxValue.toInt then
            .ok (Int32.ofInt number, rest)
          else
            .error .wrongShape
        | none => .error .wrongShape
    else
      .error (unexpected (character :: rest))
  | [] => .error .incomplete

/-! ### Variants -/

/-- What comes with the name of a variant. -/
inductive Variant (α : Type) where
  /-- Nothing: the name alone is the variant. -/
  | alone (value : α)
  /-- A payload, which decides the value. -/
  | carrying (payload : Reader α)

/-- Read the payload of a variant that stands in an object. -/
def Variant.read {α : Type} : Variant α → Reader α
  | alone value, text =>
    match readNull text with
    | .ok ((), rest) => .ok (value, rest)
    | .error error => .error error
  | carrying payload, text => payload text

/-- Read the key of an object and select its variant. Nothing but a string can be a key. -/
def readKey {α : Type} (select : String → Option (Variant α)) : Reader (Variant α) := fun text =>
  match skipBlanks text with
  | '"' :: rest =>
    match readString rest with
    | .error error => .error error
    | .ok (name, rest) =>
      match select name with
      | some variant => .ok (variant, rest)
      | none => .error .wrongShape
  | _ :: _ => .error .illFormed
  | [] => .error .incomplete

/-- Read a single character between blanks. -/
def readMark (mark : Char) : Reader Unit := fun text =>
  readExactly [mark] (skipBlanks text)

/-- Read a variant: a string that names one without payload, or an object whose only key names one. -/
def readVariant {α : Type} (select : String → Option (Variant α)) : Reader α := fun text =>
  match skipBlanks text with
  | '\x7b' :: rest =>
    match readKey select rest with
    | .error error => .error error
    | .ok (variant, rest) =>
      match readMark ':' rest with
      | .error error => .error error
      | .ok ((), rest) =>
        match variant.read rest with
        | .error error => .error error
        | .ok (value, rest) =>
          match readMark '\x7d' rest with
          | .error error => .error error
          | .ok ((), rest) => .ok (value, rest)
  | '"' :: rest =>
    match readKey select ('"' :: rest) with
    | .error error => .error error
    | .ok (.alone value, rest) => .ok (value, rest)
    | .ok (.carrying _, _) => .error .wrongShape
  | _ :: _ => .error .illFormed
  | [] => .error .incomplete

/-! ### Lists -/

/-- Read the elements of an array up to its closing bracket. Every element takes at least one character,
so `fuel` need not exceed the length of the text. -/
def readElements {α : Type} (element : Reader α) : Nat → Reader (List α)
  | 0, _ => .error .incomplete
  | fuel + 1, text =>
    match element text with
    | .error error => .error error
    | .ok (first, rest) =>
      match skipBlanks rest with
      | [] => .error .incomplete
      | ']' :: rest => .ok ([first], rest)
      | ',' :: rest =>
        match skipBlanks rest with
        | [] => .error .incomplete
        | ']' :: _ => .error .illFormed
        | rest =>
          match readElements element fuel rest with
          | .error error => .error error
          | .ok (others, rest) => .ok (first :: others, rest)
      | _ :: _ => .error .illFormed

/-- Read an array. -/
def readList {α : Type} (element : Reader α) : Reader (List α) := fun text =>
  match skipBlanks text with
  | '[' :: rest =>
    match skipBlanks rest with
    | [] => .error .incomplete
    | ']' :: rest => .ok ([], rest)
    | rest => readElements element rest.length rest
  | other => .error (unexpected other)

/-- Read a whole text: only blanks may follow. -/
def decode {α : Type} (read : Reader α) (text : String) : Except DecodeError α :=
  match read text.toList with
  | .error error => .error error
  | .ok (value, rest) => if skipBlanks rest = [] then .ok value else .error .illFormed

/-! ### Values and instructions -/

/-- Read a value. -/
def readValue : Reader Value :=
  readVariant fun
    | "Integer" => some <| .carrying fun text =>
      match readWord text with
      | .ok (word, rest) => .ok (.integer word, rest)
      | .error error => .error error
    | "Boolean" => some <| .carrying fun text =>
      match readTruth text with
      | .ok (truth, rest) => .ok (.boolean truth, rest)
      | .error error => .error error
    | _ => none

/-- Read an instruction. -/
def readInstruction : Reader Instruction :=
  readVariant fun name => (Instruction.all.find? (·.name == name)).map .alone

/-- The decimal form of an integer. -/
def writeInt (number : Int) : List Char :=
  if number < 0 then '-' :: Nat.toDigits 10 number.natAbs else Nat.toDigits 10 number.natAbs

/-- The JSON form of a variant with a payload. -/
def writeTagged (name : String) (payload : List Char) : List Char :=
  '\x7b' :: '"' :: name.toList ++ '"' :: ':' :: payload ++ ['\x7d']

/-- The JSON form of a value. -/
def writeValue : Value → List Char
  | .integer word => writeTagged "Integer" (writeInt word.toInt)
  | .boolean true => writeTagged "Boolean" ['t', 'r', 'u', 'e']
  | .boolean false => writeTagged "Boolean" ['f', 'a', 'l', 's', 'e']

/-- The JSON form of an instruction. -/
def writeInstruction (instruction : Instruction) : List Char :=
  '"' :: instruction.name.toList ++ ['"']

/-- The elements of an array, separated by commas. -/
def writeElements {α : Type} (write : α → List Char) : List α → List Char
  | [] => []
  | [element] => write element
  | element :: others => write element ++ ',' :: writeElements write others

/-- The JSON form of a list. -/
def writeList {α : Type} (write : α → List Char) (elements : List α) : List Char :=
  '[' :: writeElements write elements ++ [']']

/-- The written form as a text. -/
def encode {α : Type} (write : α → List Char) (value : α) : String :=
  String.ofList (write value)

end Crosswire.JsonText
