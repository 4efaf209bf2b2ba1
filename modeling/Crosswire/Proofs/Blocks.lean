/-
Module: Crosswire.Proofs.Blocks
Purpose: Well-nested programs as trees. A block is a sequence of plain instructions and loops, and each
  loop has a block as its body; `flatten` writes a block out with brackets. A program is well nested if
  no prefix closes more loops than it opens, and those are exactly the flattened blocks, each of one
  block only. The scans step over a flattened block as if it were not there, so that the brackets of a
  loop are partners.
Imports: Crosswire.Proofs.BracketMatching
Main exports: Block, Block.flatten, Program.WellNested, Block.flatten_injective,
  Program.WellNested.exists_block, Block.scanForward_loop, Block.scanBackward_loop
-/
import Crosswire.Proofs.BracketMatching

namespace Crosswire

/-- A sequence of plain instructions and loops. -/
inductive Block where
  /-- Nothing is left. -/
  | done
  /-- An instruction that is no bracket, then the rest. -/
  | plain (instruction : Instruction) (notBracket : instruction.isBracket = false) (rest : Block)
  /-- A loop, then the rest. -/
  | loop (body rest : Block)
deriving DecidableEq

namespace Block

/-- The instructions of a block, each loop between its brackets. -/
def flatten : Block → List Instruction
  | done => []
  | plain instruction _ rest => instruction :: rest.flatten
  | loop body rest => .loopStart :: (body.flatten ++ .loopEnd :: rest.flatten)

/-- The number of instructions of a block, brackets included. -/
def size (block : Block) : Nat :=
  block.flatten.length

@[simp] theorem size_done : done.size = 0 := rfl

@[simp] theorem size_plain (instruction : Instruction) (notBracket : instruction.isBracket = false)
    (rest : Block) : (plain instruction notBracket rest).size = rest.size + 1 := rfl

@[simp] theorem size_loop (body rest : Block) : (loop body rest).size = body.size + rest.size + 2 := by
  simp only [size, flatten, List.length_cons, List.length_append]
  omega

/-! ### A flattened block has one tree -/

/-- What can stand behind a whole block: nothing, or the end of the loop around it. -/
def Closes (behind : List Instruction) : Prop :=
  behind = [] ∨ ∃ later, behind = .loopEnd :: later

theorem not_closes_cons {instruction : Instruction} {later : List Instruction}
    (other : instruction ≠ .loopEnd) : ¬ Closes (instruction :: later) := by
  rintro (empty | ⟨rest, same⟩)
  · cases empty
  · cases same
    exact other rfl

/-- Two blocks that are read off the same instructions, up to where each is closed, are the same. -/
theorem flatten_append_injective {first second : Block} {behind other : List Instruction}
    (closes : Closes behind) (closesToo : Closes other)
    (same : first.flatten ++ behind = second.flatten ++ other) :
    first = second ∧ behind = other := by
  induction first generalizing second behind other with
  | done =>
    cases second with
    | done => exact ⟨rfl, same⟩
    | plain instruction notBracket rest =>
      rw [flatten, List.nil_append] at same
      rw [same] at closes
      exact absurd closes (not_closes_cons (Instruction.ne_loopEnd_of_plain notBracket))
    | loop body rest =>
      rw [flatten, List.nil_append] at same
      rw [same] at closes
      exact absurd closes (not_closes_cons (by decide))
  | plain instruction notBracket rest ih =>
    cases second with
    | done =>
      rw [flatten, flatten, List.nil_append] at same
      rw [← same] at closesToo
      exact absurd closesToo (not_closes_cons (Instruction.ne_loopEnd_of_plain notBracket))
    | plain instruction' notBracket' rest' =>
      simp only [flatten, List.cons_append, List.cons.injEq] at same
      obtain ⟨rfl, tail⟩ := same
      obtain ⟨rfl, rfl⟩ := ih closes closesToo tail
      exact ⟨rfl, rfl⟩
    | loop body rest' =>
      simp only [flatten, List.cons_append, List.cons.injEq] at same
      exact absurd same.1 (Instruction.ne_loopStart_of_plain notBracket)
  | loop body rest bodyIh restIh =>
    cases second with
    | done =>
      rw [flatten, flatten, List.nil_append] at same
      rw [← same] at closesToo
      exact absurd closesToo (not_closes_cons (by decide))
    | plain instruction notBracket rest' =>
      simp only [flatten, List.cons_append, List.cons.injEq] at same
      exact absurd same.1.symm (Instruction.ne_loopStart_of_plain notBracket)
    | loop body' rest' =>
      simp only [flatten, List.cons_append, List.append_assoc, List.cons.injEq, true_and] at same
      obtain ⟨rfl, tail⟩ := bodyIh (.inr ⟨_, rfl⟩) (.inr ⟨_, rfl⟩) same
      simp only [List.cons.injEq, true_and] at tail
      obtain ⟨rfl, rfl⟩ := restIh closes closesToo tail
      exact ⟨rfl, rfl⟩

theorem flatten_injective {first second : Block} (same : first.flatten = second.flatten) :
    first = second := by
  have padded : first.flatten ++ [] = second.flatten ++ [] := by rw [same]
  exact (flatten_append_injective (.inl rfl) (.inl rfl) padded).1

/-! ### A well-nested program has a tree -/

/-- Instructions that close `depth` more loops than they open, and never more in any prefix, are a
block followed by `depth` loop ends with a block behind each. -/
theorem exists_blocks {instructions : List Instruction} {depth : Nat}
    (nested : ∀ length, (instructions.take length).count .loopEnd ≤
      (instructions.take length).count .loopStart + depth)
    (total : instructions.count .loopEnd = instructions.count .loopStart + depth) :
    ∃ (block : Block) (others : List Block), others.length = depth ∧
      instructions = block.flatten ++ others.flatMap (fun other => .loopEnd :: other.flatten) := by
  induction instructions generalizing depth with
  | nil =>
    have shallow : depth = 0 := by simpa using total.symm
    exact ⟨.done, [], shallow.symm, rfl⟩
  | cons instruction rest ih =>
    have inner (length : Nat) := nested (length + 1)
    simp only [List.take_succ_cons] at inner
    rcases instruction.bracket_cases with rfl | rfl | plain
    · -- A loop start: the first loop end behind the block that follows closes it.
      simp only [List.count_cons_self, List.count_cons_of_ne, ne_eq, reduceCtorEq,
        not_false_eq_true] at inner total
      have deeper (length : Nat) : (rest.take length).count .loopEnd ≤
          (rest.take length).count .loopStart + (depth + 1) := by
        have := inner length
        omega
      obtain ⟨body, others, deep, rfl⟩ := ih deeper (by omega)
      cases others with
      | nil => cases deep
      | cons after others =>
        refine ⟨.loop body after, others, by simpa using deep, ?_⟩
        simp [flatten]
    · -- A loop end: the block is over, and one of the loops around it is closed.
      simp only [List.count_cons_self, List.count_cons_of_ne, ne_eq, reduceCtorEq,
        not_false_eq_true] at inner total
      cases depth with
      | zero =>
        have impossible := inner 0
        simp at impossible
      | succ outer =>
        have shallower (length : Nat) : (rest.take length).count .loopEnd ≤
            (rest.take length).count .loopStart + outer := by
          have := inner length
          omega
        obtain ⟨block, others, deep, rfl⟩ := ih shallower (by omega)
        refine ⟨.done, block :: others, by simp [deep], ?_⟩
        simp [flatten]
    · simp only [List.count_cons_of_ne (Instruction.ne_loopStart_of_plain plain),
        List.count_cons_of_ne (Instruction.ne_loopEnd_of_plain plain)] at inner total
      obtain ⟨block, others, deep, rfl⟩ := ih inner total
      exact ⟨.plain instruction plain block, others, deep, rfl⟩

/-! ### A tree is well nested -/

theorem count_flatten (block : Block) :
    block.flatten.count .loopEnd = block.flatten.count .loopStart := by
  induction block with
  | done => rfl
  | plain instruction notBracket rest ih =>
    rw [flatten, List.count_cons_of_ne (Instruction.ne_loopEnd_of_plain notBracket),
      List.count_cons_of_ne (Instruction.ne_loopStart_of_plain notBracket), ih]
  | loop body rest bodyIh restIh =>
    simp only [flatten, List.count_append, List.count_cons_self, List.count_cons_of_ne, ne_eq,
      reduceCtorEq, not_false_eq_true]
    omega

theorem count_take_flatten_le (block : Block) (length : Nat) :
    (block.flatten.take length).count .loopEnd ≤ (block.flatten.take length).count .loopStart := by
  induction block generalizing length with
  | done => simp [flatten]
  | plain instruction notBracket rest ih =>
    cases length with
    | zero => simp
    | succ length =>
      rw [flatten, List.take_succ_cons,
        List.count_cons_of_ne (Instruction.ne_loopEnd_of_plain notBracket),
        List.count_cons_of_ne (Instruction.ne_loopStart_of_plain notBracket)]
      exact ih length
  | loop body rest bodyIh restIh =>
    cases length with
    | zero => simp
    | succ length =>
      have inBody := bodyIh length
      rw [flatten, List.take_succ_cons, List.take_append]
      cases past : length - body.flatten.length with
      | zero =>
        simp only [List.take_zero, List.append_nil, List.count_cons_self, List.count_cons_of_ne, ne_eq,
          reduceCtorEq, not_false_eq_true]
        omega
      | succ more =>
        -- The prefix reaches past the end of the loop, so it has the whole body.
        have inRest := restIh more
        have balanced := body.count_flatten
        rw [List.take_of_length_le (by omega)]
        simp only [List.take_succ_cons, List.count_append, List.count_cons_self,
          List.count_cons_of_ne, ne_eq, reduceCtorEq, not_false_eq_true]
        omega

end Block

/-- No prefix of the program closes more loops than it opens. -/
def Program.WellNested (program : Program) : Prop :=
  ∀ length, (program.instructions.take length).count .loopEnd ≤
    (program.instructions.take length).count .loopStart

/-- A well-nested program is a block written out. -/
theorem Program.WellNested.exists_block {program : Program} (nested : program.WellNested) :
    ∃ block : Block, block.flatten = program.instructions := by
  obtain ⟨block, others, none, split⟩ :
      ∃ (block : Block) (others : List Block), others.length = 0 ∧ program.instructions =
        block.flatten ++ others.flatMap (fun other => .loopEnd :: other.flatten) :=
    Block.exists_blocks nested program.balanced.symm
  have alone : others = [] := List.eq_nil_of_length_eq_zero none
  refine ⟨block, ?_⟩
  rw [split, alone, List.flatMap_nil, List.append_nil]

/-- The program of a block. -/
def Block.program (block : Block) : Program :=
  ⟨block.flatten, block.count_flatten.symm⟩

theorem Block.wellNested_program (block : Block) : block.program.WellNested :=
  block.count_take_flatten_le

namespace Block

/-! ### Scanning over a block -/

/-- A forward scan steps over a block. -/
theorem firstUnpaired_flatten (block : Block) (depth : Nat) (behind : List Instruction) :
    firstUnpaired .loopStart .loopEnd depth (block.flatten ++ behind) =
      (firstUnpaired .loopStart .loopEnd depth behind).map (block.size + ·) := by
  induction block generalizing depth behind with
  | done => simp [flatten]
  | plain instruction notBracket rest ih =>
    rw [flatten, List.cons_append, firstUnpaired_other (Instruction.ne_loopStart_of_plain notBracket)
      (Instruction.ne_loopEnd_of_plain notBracket), ih, Option.map_map]
    congr 1
    funext offset
    simp only [Function.comp_apply, size_plain]
    omega
  | loop body rest bodyIh restIh =>
    rw [flatten, List.cons_append, List.append_assoc, firstUnpaired_opening, bodyIh,
      List.cons_append, firstUnpaired_closing_succ (by decide), restIh]
    simp only [Option.map_map]
    congr 1
    funext offset
    simp only [Function.comp_apply, size_loop]
    omega

/-- A backward scan steps over a block. -/
theorem firstUnpaired_reverse_flatten (block : Block) (depth : Nat) (before : List Instruction) :
    firstUnpaired .loopEnd .loopStart depth (block.flatten.reverse ++ before) =
      (firstUnpaired .loopEnd .loopStart depth before).map (block.size + ·) := by
  induction block generalizing depth before with
  | done => simp [flatten]
  | plain instruction notBracket rest ih =>
    rw [flatten, List.reverse_cons, List.append_assoc, ih, List.singleton_append,
      firstUnpaired_other (Instruction.ne_loopEnd_of_plain notBracket)
        (Instruction.ne_loopStart_of_plain notBracket), Option.map_map]
    congr 1
    funext offset
    simp only [Function.comp_apply, size_plain]
    omega
  | loop body rest bodyIh restIh =>
    have reversed : (loop body rest).flatten.reverse ++ before =
        rest.flatten.reverse ++ .loopEnd :: (body.flatten.reverse ++ .loopStart :: before) := by
      simp [flatten]
    rw [reversed, restIh, firstUnpaired_opening, bodyIh, firstUnpaired_closing_succ (by decide)]
    simp only [Option.map_map]
    congr 1
    funext offset
    simp only [Function.comp_apply, size_loop]
    omega

/-- The forward scan from the start of a loop finds its end. -/
theorem scanForward_loop (before behind : List Instruction) (body rest : Block) :
    scanForward (before ++ (loop body rest).flatten ++ behind) before.length =
      some (before.length + 1 + body.size) := by
  have following : (before ++ (loop body rest).flatten ++ behind).drop (before.length + 1) =
      body.flatten ++ .loopEnd :: (rest.flatten ++ behind) := by
    rw [← List.drop_drop]
    simp [flatten]
  rw [scanForward, following, firstUnpaired_flatten, firstUnpaired_closing_zero (by decide)]
  rfl

/-- The backward scan from the end of a loop finds its start. -/
theorem scanBackward_loop (before behind : List Instruction) (body rest : Block) :
    scanBackward (before ++ (loop body rest).flatten ++ behind) (before.length + 1 + body.size) =
      some before.length := by
  have preceding : (before ++ (loop body rest).flatten ++ behind).take
      (before.length + 1 + body.size) = before ++ .loopStart :: body.flatten := by
    rw [Nat.add_assoc, List.append_assoc, List.take_append, List.take_of_length_le (by omega)]
    simp [flatten, size, Nat.add_comm 1]
  have reversed : (before ++ .loopStart :: body.flatten).reverse =
      body.flatten.reverse ++ .loopStart :: before.reverse := by
    simp
  rw [scanBackward, preceding, reversed, firstUnpaired_reverse_flatten,
    firstUnpaired_closing_zero (by decide)]
  simp [size]

end Block

end Crosswire
