/-
Module: Crosswire.Value
Purpose: The two kinds of runtime value, signed 32-bit words and truth values, with the arithmetic of
  the machine. Addition always gives a word, nand of two truth values is the only nand that stays a
  truth value, and the predecessor of `false` is the word -1.
Main exports: Value, Value.add, Value.decrement, Value.nand, Value.isTruthy, Value.glyphs, Value.text,
  Value.description
-/

namespace Crosswire

/-- A runtime value. Words wrap around at 32 bits. -/
inductive Value where
  | integer (word : Int32)
  | boolean (truth : Bool)
deriving DecidableEq, Repr

namespace Value

/-- The word zero, the initial accumulator. -/
def zero : Value := integer 0

/-- The number that addition sees: `true` counts one and `false` counts nothing. -/
def addend : Value → Int32
  | integer word => word
  | boolean true => 1
  | boolean false => 0

/-- The bit pattern that nand sees: `true` has every bit set and `false` has none. -/
def mask : Value → Int32
  | integer word => word
  | boolean true => -1
  | boolean false => 0

/-- Wrapping addition. The sum is a word, also for two truth values. -/
def add (left right : Value) : Value :=
  integer (left.addend + right.addend)

/-- The predecessor: `true` becomes `false`, and `false` becomes the word -1. -/
def decrement : Value → Value
  | integer word => integer (word - 1)
  | boolean true => boolean false
  | boolean false => integer (-1)

/-- Bitwise nand, a truth value only when both operands are. -/
def nand : Value → Value → Value
  | boolean left, boolean right => boolean (!(left && right))
  | left, right => integer (~~~(left.mask &&& right.mask))

/-- The loop condition: everything but the word zero and `false`. -/
def isTruthy : Value → Bool
  | integer word => word != 0
  | boolean truth => truth

/-- The 16-bit code unit of a word: its residue modulo 65536. -/
def codeUnit (word : Int32) : Nat :=
  (word.toInt % 65536).toNat

/-- Whether a code unit is one half of a surrogate pair, which is no character of its own. -/
def isSurrogate (unit : Nat) : Bool :=
  0xD800 ≤ unit && unit ≤ 0xDFFF

/-- The character of a code unit. A surrogate is replaced by U+FFFD. -/
def unitChar (unit : Nat) : Char :=
  if isSurrogate unit then '\uFFFD' else Char.ofNat unit

/-- The characters that printing a value gives: one for a word, the spelled-out name for a truth
value. -/
def glyphs : Value → List Char
  | integer word => [unitChar (codeUnit word)]
  | boolean true => ['t', 'r', 'u', 'e']
  | boolean false => ['f', 'a', 'l', 's', 'e']

/-- The text that printing a value gives. -/
def text (value : Value) : String :=
  String.ofList value.glyphs

/-- The form in which logs show a value: its kind around its content. -/
def description : Value → String
  | integer word => s!"Integer({word.toInt})"
  | boolean true => "Boolean(true)"
  | boolean false => "Boolean(false)"

instance : Inhabited Value := ⟨zero⟩

end Value

end Crosswire
