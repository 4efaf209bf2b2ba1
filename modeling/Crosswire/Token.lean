/-
Module: Crosswire.Token
Purpose: Reading source text. A token is an instruction with the byte span of the character that
  spells it; characters outside the instruction table are skipped, and only move the spans of the
  tokens after them by their encoded length.
Imports: Crosswire.Instruction
Main exports: Span, Token, tokens, instructionsOf
-/
import Crosswire.Instruction

namespace Crosswire

/-- A half-open range of byte offsets into the UTF-8 form of a source text. -/
structure Span where
  /-- Offset of the first byte. -/
  start : Nat
  /-- Offset just after the last byte. -/
  stop : Nat
deriving DecidableEq, Repr

/-- An instruction and where its character stands in the source. -/
structure Token where
  instruction : Instruction
  span : Span
deriving DecidableEq, Repr

/-- The tokens of a run of characters whose first byte has the given offset. -/
def tokensFrom (offset : Nat) : List Char → List Token
  | [] => []
  | character :: rest =>
    let next := offset + character.utf8Size
    match Instruction.ofChar? character with
    | some instruction => ⟨instruction, ⟨offset, next⟩⟩ :: tokensFrom next rest
    | none => tokensFrom next rest

/-- The tokens of a source text, in order. -/
def tokens (source : String) : List Token :=
  tokensFrom 0 source.toList

/-- The instructions of a source text, in order. -/
def instructionsOf (source : String) : List Instruction :=
  (tokens source).map Token.instruction

/-- Forgetting the spans leaves the characters that are in the table. -/
theorem map_instruction_tokensFrom (offset : Nat) (characters : List Char) :
    (tokensFrom offset characters).map Token.instruction =
      characters.filterMap Instruction.ofChar? := by
  induction characters generalizing offset with
  | nil => rfl
  | cons character rest ih =>
    cases reads : Instruction.ofChar? character <;> simp [tokensFrom, reads, ih]

/-- The instructions of a source are its table characters, whatever stands between them. -/
theorem instructionsOf_eq_filterMap (source : String) :
    instructionsOf source = source.toList.filterMap Instruction.ofChar? :=
  map_instruction_tokensFrom 0 source.toList

end Crosswire
