/-
Module: Crosswire.Codec.Binary
Purpose: The binary form of values and instructions. Numbers have a fixed width and put their least
  byte first; a variant is its index in four bytes; a list is its length in eight bytes and then its
  elements. Decoding reads from the front and returns the bytes left over.
Imports: Crosswire.Instruction, Crosswire.Value
Main exports: Binary.DecodeError, Binary.encodeValue, Binary.decodeValue, Binary.encodeInstruction,
  Binary.decodeInstruction, Binary.encodeList, Binary.decodeList
-/
import Crosswire.Instruction
import Crosswire.Value

namespace Crosswire.Binary

/-- Why bytes could not be decoded. -/
inductive DecodeError where
  /-- The bytes end too early. -/
  | endOfInput
  /-- The index is not below the number of variants. -/
  | unknownVariant (index count : Nat)
  /-- A truth value is neither zero nor one. -/
  | invalidTruth (byte : UInt8)
deriving DecidableEq, Repr

/-- The wording of a decoding error. -/
def DecodeError.message : DecodeError → String
  | endOfInput => "io error: unexpected end of file"
  | unknownVariant index count =>
    s!"invalid value: integer `{index}`, expected variant index 0 <= i < {count}"
  | invalidTruth byte =>
    s!"invalid u8 while decoding bool, expected 0 or 1, found {byte.toNat}"

/-- Reads something from the front of some bytes and returns the rest. -/
abbrev Decoder (α : Type) := List UInt8 → Except DecodeError (α × List UInt8)

/-! ### Numbers -/

/-- The `width` lowest base-256 digits of a number, least digit first. -/
def encodeNat : Nat → Nat → List UInt8
  | 0, _ => []
  | width + 1, number => UInt8.ofNat number :: encodeNat width (number / 256)

/-- Read a number of `width` base-256 digits, least digit first. -/
def decodeNat : Nat → Decoder Nat
  | 0, bytes => .ok (0, bytes)
  | _ + 1, [] => .error .endOfInput
  | width + 1, byte :: bytes =>
    match decodeNat width bytes with
    | .ok (high, rest) => .ok (byte.toNat + 256 * high, rest)
    | .error error => .error error

/-- A number is as long as its width says. -/
@[simp] theorem length_encodeNat (width number : Nat) : (encodeNat width number).length = width := by
  induction width generalizing number with
  | zero => rfl
  | succ width ih => simp [encodeNat, ih]

/-- Decoding gives a number back that its width can hold, and does not touch what follows it. -/
theorem decodeNat_encodeNat_append (width number : Nat) (rest : List UInt8) :
    decodeNat width (encodeNat width number ++ rest) = .ok (number % Nat.pow 256 width, rest) := by
  induction width generalizing number with
  | zero => simp [encodeNat, decodeNat, Nat.pow, Nat.mod_one]
  | succ width ih =>
    have size : Nat.pow 256 (width + 1) = 256 * Nat.pow 256 width := Nat.mul_comm _ _
    rw [size, Nat.mod_mul]
    simp [encodeNat, decodeNat, ih]

/-! ### Variants -/

/-- Read the index of a variant among `count` variants. -/
def decodeIndex (count : Nat) : Decoder Nat := fun bytes =>
  match decodeNat 4 bytes with
  | .ok (index, rest) =>
    if index < count then .ok (index, rest) else .error (.unknownVariant index count)
  | .error error => .error error

/-- Read a truth value from one byte. -/
def decodeTruth : Decoder Bool
  | [] => .error .endOfInput
  | byte :: rest =>
    if byte = 0 then .ok (false, rest)
    else if byte = 1 then .ok (true, rest)
    else .error (.invalidTruth byte)

/-! ### Values -/

/-- The binary form of a value: index 0 before the four bytes of a word, index 1 before the byte of a
truth value. -/
def encodeValue : Value → List UInt8
  | .integer word => encodeNat 4 0 ++ encodeNat 4 word.toUInt32.toNat
  | .boolean truth => encodeNat 4 1 ++ [if truth then 1 else 0]

/-- Read a value. -/
def decodeValue : Decoder Value := fun bytes =>
  match decodeIndex 2 bytes with
  | .ok (0, rest) =>
    match decodeNat 4 rest with
    | .ok (word, rest) => .ok (.integer (UInt32.ofNat word).toInt32, rest)
    | .error error => .error error
  | .ok (_, rest) =>
    match decodeTruth rest with
    | .ok (truth, rest) => .ok (.boolean truth, rest)
    | .error error => .error error
  | .error error => .error error

/-! ### Instructions -/

/-- The instructions in the order of their indexes. -/
def instructionsByIndex : List Instruction :=
  [.add, .decrement, .nand, .zero, .print, .rotateRight, .rotateLeft, .push, .pop, .pushTrue,
    .pushFalse, .discourage, .modeOneD, .modeTwoD, .halt, .loopStart, .loopEnd]

/-- The binary form of an instruction: its index. -/
def encodeInstruction (instruction : Instruction) : List UInt8 :=
  encodeNat 4 (instructionsByIndex.idxOf instruction)

/-- Read an instruction. -/
def decodeInstruction : Decoder Instruction := fun bytes =>
  match decodeNat 4 bytes with
  | .ok (index, rest) =>
    match instructionsByIndex[index]? with
    | some instruction => .ok (instruction, rest)
    | none => .error (.unknownVariant index instructionsByIndex.length)
  | .error error => .error error

/-! ### Lists -/

/-- The binary form of a list: its length, then its elements. -/
def encodeList {α : Type} (encode : α → List UInt8) (elements : List α) : List UInt8 :=
  encodeNat 8 elements.length ++ elements.flatMap encode

/-- Read a given number of elements. -/
def decodeMany {α : Type} (decode : Decoder α) : Nat → Decoder (List α)
  | 0, bytes => .ok ([], bytes)
  | count + 1, bytes =>
    match decode bytes with
    | .ok (element, rest) =>
      match decodeMany decode count rest with
      | .ok (elements, rest) => .ok (element :: elements, rest)
      | .error error => .error error
    | .error error => .error error

/-- Read a list. -/
def decodeList {α : Type} (decode : Decoder α) : Decoder (List α) := fun bytes =>
  match decodeNat 8 bytes with
  | .ok (length, rest) => decodeMany decode length rest
  | .error error => .error error

end Crosswire.Binary
