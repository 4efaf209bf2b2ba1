/-
Module: Crosswire.Text.Pieces
Purpose: Cutting a text at every occurrence of a separator. The pieces of a text are never fewer than
  one.
Main exports: pieces, lines
-/

namespace Crosswire

/-- The pieces between the separators of a list of characters, the empty ones included. -/
def cutAt (separator : Char) : List Char → List (List Char)
  | [] => [[]]
  | character :: rest =>
    if character = separator then
      [] :: cutAt separator rest
    else
      match cutAt separator rest with
      | piece :: others => (character :: piece) :: others
      | [] => [[character]]

/-- The pieces between the separators of a text. -/
def pieces (separator : Char) (text : String) : List String :=
  (cutAt separator text.toList).map String.ofList

/-- The lines of a text. -/
def lines (text : String) : List String :=
  pieces '\n' text

end Crosswire
