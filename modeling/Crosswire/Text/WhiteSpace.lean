/-
Module: Crosswire.Text.WhiteSpace
Purpose: White space in any script, as the Unicode standard lists it, and texts without the white space
  around them.
Main exports: isWhiteSpace, trimmed
-/

namespace Crosswire

/-- The code points of white space, from the first to the last of each unbroken range. -/
def whiteSpaceRanges : List (Nat × Nat) :=
  [(0x9, 0xD), (0x20, 0x20), (0x85, 0x85), (0xA0, 0xA0), (0x1680, 0x1680), (0x2000, 0x200A),
    (0x2028, 0x2029), (0x202F, 0x202F), (0x205F, 0x205F), (0x3000, 0x3000)]

/-- Whether a character is white space. -/
def isWhiteSpace (character : Char) : Bool :=
  whiteSpaceRanges.any fun (first, last) => first ≤ character.toNat && character.toNat ≤ last

/-- A text without the white space at its ends. -/
def trimmed (characters : List Char) : List Char :=
  ((characters.dropWhile isWhiteSpace).reverse.dropWhile isWhiteSpace).reverse

end Crosswire
