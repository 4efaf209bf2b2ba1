/-
Module: Crosswire.Instruction
Purpose: The seventeen instructions of the language and their fixed one-character spelling. Every
  character outside the table is commentary, so reading a character is a partial function and writing
  an instruction is a total one; `ofChar?_toChar` and `toChar_of_ofChar?` say that the two are inverse.
Main exports: Instruction, Instruction.all, Instruction.ofChar?, Instruction.toChar, Instruction.name,
  Instruction.mnemonic, Instruction.isBracket
-/

namespace Crosswire

/-- One instruction of the language, grouped by what it acts on. The order of the constructors is the
numbering of the binary form. -/
inductive Instruction where
  /-- Replace the accumulator by the popped operand plus the accumulator. -/
  | add
  /-- Replace the accumulator by its predecessor. -/
  | decrement
  /-- Replace the accumulator by the popped operand nand the accumulator. -/
  | nand
  /-- Set the accumulator to zero. -/
  | zero
  /-- Print the accumulator. -/
  | print
  /-- Move the last element of the routed level to its front. -/
  | rotateRight
  /-- Move the first element of the routed level to its back. -/
  | rotateLeft
  /-- Push the accumulator, or a new empty stack. -/
  | push
  /-- Pop a value into the accumulator, or drop the top stack. -/
  | pop
  /-- Push the truth value `true`. -/
  | pushTrue
  /-- Push the truth value `false`. -/
  | pushFalse
  /-- Switch styled output on, for good. -/
  | discourage
  /-- Let push and pop act on the stack of stacks. -/
  | modeOneD
  /-- Let push and pop act on the value stack. -/
  | modeTwoD
  /-- Stop the program. -/
  | halt
  /-- Skip to the matching loop end while the accumulator is falsy. -/
  | loopStart
  /-- Go back to the matching loop start while the accumulator is truthy. -/
  | loopEnd
deriving DecidableEq, Repr, Inhabited

namespace Instruction

/-- Every instruction, in the order of the language's character table. -/
def all : List Instruction :=
  [add, decrement, print, rotateRight, rotateLeft, nand, push, pop, halt, zero, discourage, modeTwoD,
    modeOneD, pushTrue, pushFalse, loopStart, loopEnd]

/-- The source character of an instruction. -/
def toChar : Instruction → Char
  | add => '+'
  | decrement => '-'
  | print => '!'
  | rotateRight => '>'
  | rotateLeft => '<'
  | nand => '&'
  | push => '='
  | pop => '_'
  | halt => '.'
  | zero => '0'
  | discourage => '*'
  | modeTwoD => '2'
  | modeOneD => '1'
  | pushTrue => 't'
  | pushFalse => 'f'
  | loopStart => '('
  | loopEnd => ')'

/-- The instruction spelled by a character, if the character is in the table. -/
def ofChar? : Char → Option Instruction
  | '+' => some add
  | '-' => some decrement
  | '!' => some print
  | '>' => some rotateRight
  | '<' => some rotateLeft
  | '&' => some nand
  | '=' => some push
  | '_' => some pop
  | '.' => some halt
  | '0' => some zero
  | '*' => some discourage
  | '2' => some modeTwoD
  | '1' => some modeOneD
  | 't' => some pushTrue
  | 'f' => some pushFalse
  | '(' => some loopStart
  | ')' => some loopEnd
  | _ => none

/-- The name under which an instruction is stored and listed. -/
def name : Instruction → String
  | add => "Add"
  | decrement => "Decrement"
  | nand => "Nand"
  | zero => "Zero"
  | print => "Print"
  | rotateRight => "RotateRight"
  | rotateLeft => "RotateLeft"
  | push => "Push"
  | pop => "Pop"
  | pushTrue => "True"
  | pushFalse => "False"
  | discourage => "Discouraged"
  | modeOneD => "SetMode1D"
  | modeTwoD => "SetMode2D"
  | halt => "End"
  | loopStart => "LoopStart"
  | loopEnd => "LoopEnd"

/-- The short name that the step log prints. -/
def mnemonic : Instruction → String
  | add => "add"
  | decrement => "dec"
  | print => "print"
  | rotateRight => "rotr"
  | rotateLeft => "rotl"
  | nand => "nand"
  | push => "push"
  | pop => "pop"
  | halt => "end"
  | zero => "zero"
  | discourage => "discouraged"
  | modeTwoD => "mode2d"
  | modeOneD => "mode1d"
  | pushTrue => "true"
  | pushFalse => "false"
  | loopStart => "loop"
  | loopEnd => "endloop"

/-- Whether an instruction is one of the two loop brackets. -/
def isBracket : Instruction → Bool
  | loopStart | loopEnd => true
  | _ => false

/-! ### The table is a bijection -/

/-- Every instruction is read back from its own character. -/
@[simp] theorem ofChar?_toChar (instruction : Instruction) :
    ofChar? instruction.toChar = some instruction := by
  cases instruction <;> rfl

/-- A character that reads as an instruction is that instruction's character. -/
theorem toChar_of_ofChar? {character : Char} {instruction : Instruction}
    (reads : ofChar? character = some instruction) : instruction.toChar = character := by
  unfold ofChar? at reads
  split at reads <;> cases reads <;> rfl

/-- The table misses no instruction. -/
theorem mem_all (instruction : Instruction) : instruction ∈ all := by
  cases instruction <;> decide

end Instruction

end Crosswire
