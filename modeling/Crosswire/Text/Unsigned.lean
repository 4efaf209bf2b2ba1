/-
Module: Crosswire.Text.Unsigned
Purpose: Digits, and reading unsigned 64-bit numbers from decimal text. A plus sign may stand in front
  and zeros may lead; the first character from the left that cannot be taken decides what is wrong.
Main exports: NumberError, digitValue, hexValue?, unsignedBound, parseUnsigned
-/

namespace Crosswire

/-- Why a text is no unsigned number. -/
inductive NumberError where
  | empty
  | invalidDigit
  | tooLarge
deriving DecidableEq, Repr

/-- The wording of a number error. -/
def NumberError.message : NumberError → String
  | empty => "cannot parse integer from empty string"
  | invalidDigit => "invalid digit found in string"
  | tooLarge => "number too large to fit in target type"

/-- The value of a decimal digit. -/
def digitValue (digit : Char) : Nat :=
  digit.toNat - '0'.toNat

/-- The value of a hexadecimal digit. -/
def hexValue? (character : Char) : Option Nat :=
  let code := character.toNat
  if '0' ≤ character ∧ character ≤ '9' then some (code - '0'.toNat)
  else if 'a' ≤ character ∧ character ≤ 'f' then some (code - 'a'.toNat + 10)
  else if 'A' ≤ character ∧ character ≤ 'F' then some (code - 'A'.toNat + 10)
  else none

/-- Unsigned 64-bit numbers are below this bound. -/
def unsignedBound : Nat := 0x10000000000000000

/-- Continue a number with further digits. The first character that is no digit, or the first digit that
makes the number too large, is the one reported. -/
def continueUnsigned (number : Nat) : List Char → Except NumberError Nat
  | [] => .ok number
  | character :: rest =>
    if !character.isDigit then .error .invalidDigit
    else
      let number := 10 * number + digitValue character
      if number < unsignedBound then continueUnsigned number rest else .error .tooLarge

/-- Read a number: decimal digits, behind a plus sign if one likes. -/
def parseUnsigned (text : String) : Except NumberError Nat :=
  match text.toList with
  | [] => .error .empty
  | ['+'] => .error .invalidDigit
  | '+' :: digits => continueUnsigned 0 digits
  | digits => continueUnsigned 0 digits

end Crosswire
