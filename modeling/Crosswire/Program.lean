/-
Module: Crosswire.Program
Purpose: Programs. A program is a list of instructions with as many loop starts as loop ends; the
  order of the brackets is not checked, so a program may still hold brackets without a partner.
Imports: Crosswire.Token
Main exports: Program, BracketMismatch, Program.ofInstructions, Program.load, Program.canonical
-/
import Crosswire.Token

namespace Crosswire

/-- Why a list of instructions is no program: its loop starts and loop ends differ in number. -/
structure BracketMismatch where
  opens : Nat
  closes : Nat
deriving DecidableEq, Repr

/-- The wording of a mismatch. -/
def BracketMismatch.message (mismatch : BracketMismatch) : String :=
  s!"Malformed program: {mismatch.opens} loop start(s) `(` but {mismatch.closes} loop end(s) `)`"

/-- A list of instructions whose brackets agree in number. -/
structure Program where
  instructions : List Instruction
  /-- Loop starts and loop ends occur equally often. -/
  balanced : instructions.count .loopStart = instructions.count .loopEnd
deriving DecidableEq

namespace Program

/-- The program without instructions. -/
def empty : Program := ⟨[], rfl⟩

instance : Inhabited Program := ⟨empty⟩

/-- Accept a list of instructions whose brackets agree in number, and count them otherwise. -/
def ofInstructions (instructions : List Instruction) : Except BracketMismatch Program :=
  if balanced : instructions.count .loopStart = instructions.count .loopEnd then
    .ok ⟨instructions, balanced⟩
  else
    .error ⟨instructions.count .loopStart, instructions.count .loopEnd⟩

/-- Read a program from source text. -/
def load (source : String) : Except BracketMismatch Program :=
  ofInstructions (instructionsOf source)

/-- The number of instructions. -/
def length (program : Program) : Nat :=
  program.instructions.length

/-- Whether there is no instruction. -/
def isEmpty (program : Program) : Bool :=
  program.instructions.isEmpty

/-- The instruction at a position, if the position is inside the program. -/
def get? (program : Program) (position : Nat) : Option Instruction :=
  program.instructions[position]?

/-- The number of loops, counted by their starts. -/
def loopCount (program : Program) : Nat :=
  program.instructions.count .loopStart

/-- The canonical source: one character for each instruction and nothing else. -/
def canonical (program : Program) : String :=
  String.ofList (program.instructions.map Instruction.toChar)

/-- Reading the characters of instructions gives the instructions back. -/
theorem filterMap_ofChar?_map_toChar (instructions : List Instruction) :
    (instructions.map Instruction.toChar).filterMap Instruction.ofChar? = instructions := by
  induction instructions with
  | nil => rfl
  | cons instruction rest ih => simp [ih]

/-- The instructions of the canonical source are the program's own. -/
@[simp] theorem instructionsOf_canonical (program : Program) :
    instructionsOf program.canonical = program.instructions := by
  rw [instructionsOf_eq_filterMap, canonical, String.toList_ofList, filterMap_ofChar?_map_toChar]

end Program

end Crosswire
