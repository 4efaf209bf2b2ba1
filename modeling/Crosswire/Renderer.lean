/-
Module: Crosswire.Renderer
Purpose: Turning a printed value into characters with looks. Looks are drawn only when the program has
  asked for styled output and the renderer allows it; otherwise no random word is used.
Imports: Crosswire.Style, Crosswire.Value
Main exports: Renderer, Renderer.render
-/
import Crosswire.Style
import Crosswire.Value

namespace Crosswire

/-- Renders values, with looks drawn from a supply of random words. -/
structure Renderer where
  words : Words
  /-- Whether styled output is honoured at all. -/
  allowStyling : Bool

/-- Draw a look for each character, from left to right. -/
def drawStyles : List Char → Draw (List StyledChar)
  | [] => return []
  | character :: rest => do
    let style ← Style.draw
    let others ← drawStyles rest
    return ⟨character, some style⟩ :: others

/-- The characters of a value, and the renderer for the next value. -/
def Renderer.render (renderer : Renderer) (value : Value) (styled : Bool) :
    List StyledChar × Renderer :=
  if styled && renderer.allowStyling then
    let (characters, words) := (drawStyles value.glyphs).run renderer.words
    (characters, { renderer with words })
  else
    (value.glyphs.map StyledChar.plain, renderer)

end Crosswire
