/-
Module: Crosswire.Style
Purpose: The look of a printed character: two colors and five attributes, and how a look is drawn at
  random, component by component in a fixed order.
Imports: Crosswire.Words
Main exports: Rgb, Intensity, Underline, Blink, Style, Style.draw, StyledChar
-/
import Crosswire.Words

namespace Crosswire

/-- A color with eight bits for each component. -/
structure Rgb where
  red : UInt8
  green : UInt8
  blue : UInt8
deriving DecidableEq, Repr

/-- How heavy a character looks. -/
inductive Intensity where
  | bold
  | normal
  | faint
deriving DecidableEq, Repr

/-- How a character is underlined. -/
inductive Underline where
  | single
  | double
  | off
deriving DecidableEq, Repr

/-- How a character blinks. -/
inductive Blink where
  | off
  | fast
  | slow
deriving DecidableEq, Repr

/-- The look of one character. -/
structure Style where
  foreground : Rgb
  background : Rgb
  intensity : Intensity
  underline : Underline
  blink : Blink
  strikethrough : Bool
  italic : Bool
deriving DecidableEq, Repr

/-- A random color: red, then green, then blue. -/
def Rgb.draw : Draw Rgb := do
  let red ← Draw.byte
  let green ← Draw.byte
  let blue ← Draw.byte
  return ⟨red, green, blue⟩

/-- A random look, every component independent of the others. -/
def Style.draw : Draw Style := do
  let foreground ← Rgb.draw
  let background ← Rgb.draw
  let intensity ← Draw.pick Intensity.bold [.normal, .faint]
  let underline ← Draw.pick Underline.single [.double, .off]
  let blink ← Draw.pick Blink.off [.fast, .slow]
  let strikethrough ← Draw.coin
  let italic ← Draw.coin
  return { foreground, background, intensity, underline, blink, strikethrough, italic }

/-- A character to print, with its look if it has one. -/
structure StyledChar where
  character : Char
  style : Option Style
deriving DecidableEq, Repr

/-- A character without a look of its own. -/
def StyledChar.plain (character : Char) : StyledChar :=
  ⟨character, none⟩

end Crosswire
