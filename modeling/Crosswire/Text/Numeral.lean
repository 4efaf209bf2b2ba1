/-
Module: Crosswire.Text.Numeral
Purpose: Which texts are numbers: decimal digits with or without a point, an exponent behind them, a sign
  in front, and the names of infinity and of the undefined number in any case.
Main exports: isNumeral
-/

namespace Crosswire

/-- A text without the sign in front. -/
def unsigned : List Char → List Char
  | '+' :: rest => rest
  | '-' :: rest => rest
  | text => text

/-- Whether a text is nothing, or an exponent: its mark, and digits behind a sign if one likes. -/
def isExponent : List Char → Bool
  | [] => true
  | mark :: rest =>
    (mark == 'e' || mark == 'E') && !(unsigned rest).isEmpty && (unsigned rest).all Char.isDigit

/-- Whether a text is a number without its sign: digits before a point, behind it, or both, and perhaps
an exponent. -/
def isUnsignedNumeral (text : List Char) : Bool :=
  let whole := text.takeWhile Char.isDigit
  let rest := text.dropWhile Char.isDigit
  match rest with
  | '.' :: behind =>
    let fraction := behind.takeWhile Char.isDigit
    !(whole.isEmpty && fraction.isEmpty) && isExponent (behind.dropWhile Char.isDigit)
  | _ => !whole.isEmpty && isExponent rest

/-- Whether a text is a number. -/
def isNumeral (text : String) : Bool :=
  let digits := unsigned text.toList
  isUnsignedNumeral digits
    || ["inf", "infinity", "nan"].contains (String.ofList (digits.map Char.toLower))

end Crosswire
