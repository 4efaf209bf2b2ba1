/-
Module: Crosswire.Proofs.UnmatchedBrackets
Purpose: Brackets without a partner, and the faults that they cause. Loading compares the two bracket
  counts only, so a program may hold brackets whose scan finds nothing. Read with the stack of open
  loop starts, the unmatched loop ends are those met with an empty stack and the unmatched loop starts
  are those that the stack holds in the end; hence there are as many of one kind as of the other, all
  ends stand before all starts, and none exists exactly if the program is well nested. A jump out of
  range always names such a bracket.
Imports: Crosswire.Proofs.Blocks, Crosswire.Proofs.History
Main exports: Direction.bracket, Direction.jumpsOnTruthy, execute_bracket, execute_eq_jump,
  execute_eq_jumpOutOfRange, Program.Unmatched, Program.unmatched, Program.length_unmatched,
  Program.Unmatched.lt, Program.wellNested_iff, Machine.unmatched_of_returns,
  Machine.jump_faults_unmatched
-/
import Crosswire.Proofs.Blocks
import Crosswire.Proofs.History

namespace Crosswire

/-! ### The bracket of a direction -/

namespace Direction

/-- The bracket that jumps in a direction. -/
def bracket : Direction → Instruction
  | forward => .loopStart
  | backward => .loopEnd

/-- The truth of the accumulator with which this bracket jumps. -/
def jumpsOnTruthy : Direction → Bool
  | forward => false
  | backward => true

end Direction

/-- Every instruction is the bracket of a direction or no bracket. -/
theorem Instruction.bracket_or_plain (instruction : Instruction) :
    (∃ direction : Direction, instruction = direction.bracket) ∨ instruction.isBracket = false := by
  rcases instruction.bracket_cases with rfl | rfl | plain
  · exact .inl ⟨.forward, rfl⟩
  · exact .inl ⟨.backward, rfl⟩
  · exact .inr plain

theorem Resolver.resolve_bracket {program : Program} {position : Nat} {direction : Direction}
    (here : program.get? position = some direction.bracket) (cached : Bool) :
    (ofProgram program cached).resolve program position direction =
      scan direction program.instructions position := by
  cases direction with
  | forward => exact resolve_loopStart here cached
  | backward => exact resolve_loopEnd here cached

section Execute

variable {instruction : Instruction} {position target : Nat} {program : Program}
  {resolver : Resolver} {state next : State} {direction : Direction}

/-- Both brackets do the same, each in its direction and for its truth of the accumulator. -/
theorem execute_bracket (direction : Direction) (position : Nat) (program : Program)
    (resolver : Resolver) (state : State) :
    execute direction.bracket position program resolver state =
      if state.accumulator.isTruthy = direction.jumpsOnTruthy then
        takeJump resolver program position direction state
      else
        (.ok .next, state) := by
  cases direction with
  | forward =>
    cases truth : state.accumulator.isTruthy <;>
      simp [Direction.bracket, Direction.jumpsOnTruthy, execute, truth]
  | backward =>
    cases truth : state.accumulator.isTruthy <;>
      simp [Direction.bracket, Direction.jumpsOnTruthy, execute, truth]

/-- A jump is taken by a bracket, to where its direction resolves. -/
theorem execute_eq_jump
    (executed : execute instruction position program resolver state = (.ok (.jump target), next)) :
    ∃ direction : Direction, instruction = direction.bracket ∧
      state.accumulator.isTruthy = direction.jumpsOnTruthy ∧
      resolver.resolve program position direction = some target ∧ next = state := by
  rcases instruction.bracket_or_plain with ⟨direction, rfl⟩ | plain
  · rw [execute_bracket] at executed
    split at executed
    · next truth =>
      unfold takeJump at executed
      split at executed
      · next resolved =>
        cases executed
        exact ⟨direction, rfl, truth, resolved, rfl⟩
      · cases executed
    · cases executed
  · exfalso
    cases instruction <;> grind [execute, combineOperand, Instruction.isBracket]

/-- A jump out of range is due at a bracket whose direction does not resolve. -/
theorem execute_eq_jumpOutOfRange {place : Nat}
    (executed : execute instruction position program resolver state =
      (.error (.jumpOutOfRange place direction), next)) :
    place = position ∧ instruction = direction.bracket ∧
      state.accumulator.isTruthy = direction.jumpsOnTruthy ∧
      resolver.resolve program position direction = none := by
  rcases instruction.bracket_or_plain with ⟨other, rfl⟩ | plain
  · rw [execute_bracket] at executed
    split at executed
    · next truth =>
      unfold takeJump at executed
      split at executed
      · cases executed
      · next unresolved =>
        cases executed
        exact ⟨rfl, rfl, truth, unresolved⟩
    · cases executed
  · exfalso
    cases instruction <;> grind [execute, combineOperand, Instruction.isBracket]

end Execute

namespace Program

/-- The bracket of a direction stands at a position, and has no partner. -/
def Unmatched (program : Program) (direction : Direction) (position : Nat) : Prop :=
  program.get? position = some direction.bracket ∧
    scan direction program.instructions position = none

instance (program : Program) (direction : Direction) (position : Nat) :
    Decidable (program.Unmatched direction position) :=
  inferInstanceAs (Decidable (_ ∧ _))

/-- The positions of the unmatched brackets of a direction, in order. -/
def unmatched (program : Program) (direction : Direction) : List Nat :=
  (List.range program.length).filter fun position => program.Unmatched direction position

theorem mem_unmatched {program : Program} {direction : Direction} {position : Nat} :
    position ∈ program.unmatched direction ↔ program.Unmatched direction position := by
  rw [unmatched, List.mem_filter, List.mem_range, decide_eq_true_eq]
  constructor
  · exact And.right
  · intro alone
    exact ⟨(List.getElem?_eq_some_iff.1 alone.1).1, alone⟩

end Program

/-! ### What stays on the stack of open loop starts -/

namespace Pairing

variable {position start : Nat} {opens : List Nat}

/-- A loop start on the stack was there before, or has been read since. -/
theorem mem_or_read_of_mem_opensFrom (rest : List Instruction)
    (isOpen : start ∈ opensFrom position opens rest) :
    start ∈ opens ∨ position ≤ start ∧ rest[start - position]? = some .loopStart := by
  induction rest generalizing position opens with
  | nil => exact .inl isOpen
  | cons instruction rest ih =>
    -- What was read behind the first instruction stands one place further in the whole.
    have behind (read : position + 1 ≤ start ∧ rest[start - (position + 1)]? = some .loopStart) :
        position ≤ start ∧ (instruction :: rest)[start - position]? = some .loopStart := by
      obtain ⟨past, there⟩ := read
      have shift : start - position = start - (position + 1) + 1 := by omega
      refine ⟨by omega, ?_⟩
      rw [shift, List.getElem?_cons_succ]
      exact there
    rcases instruction.bracket_cases with rfl | rfl | plain
    · rcases ih isOpen with before | read
      · rcases List.mem_cons.1 before with rfl | older
        · refine .inr ⟨Nat.le_refl _, ?_⟩
          rw [Nat.sub_self, List.getElem?_cons_zero]
        · exact .inl older
      · exact .inr (behind read)
    · rcases ih isOpen with before | read
      · exact .inl (List.mem_of_mem_tail before)
      · exact .inr (behind read)
    · rw [opensFrom_plain plain] at isOpen
      rcases ih isOpen with before | read
      · exact .inl before
      · exact .inr (behind read)

/-- Entry number `depth` of the stack stays there exactly if a forward scan that starts with `depth`
pending loop starts finds nothing. -/
theorem mem_opensFrom_iff {depth : Nat} (pending : Pending position opens)
    (entry : opens[depth]? = some start) (rest : List Instruction) :
    start ∈ opensFrom position opens rest ↔
      firstUnpaired .loopStart .loopEnd depth rest = none := by
  induction rest generalizing position opens depth with
  | nil =>
    constructor
    · intro _
      rfl
    · intro _
      exact List.mem_of_getElem? entry
  | cons instruction rest ih =>
    rcases instruction.bracket_cases with rfl | rfl | plain
    · rw [firstUnpaired_opening, Option.map_eq_none_iff]
      apply ih pending.push
      rw [List.getElem?_cons_succ]
      exact entry
    · cases opens with
      | nil => cases entry
      | cons newest older =>
        cases depth with
        | zero =>
          -- The loop start is closed here, and does not come back.
          obtain rfl : newest = start := by simpa using entry
          have passed : newest < position := pending.lt (List.mem_cons_self ..)
          rw [firstUnpaired_closing_zero (by decide)]
          constructor
          · intro isOpen
            rcases mem_or_read_of_mem_opensFrom rest isOpen with older | ⟨read, -⟩
            · exact absurd older pending.start_not_mem
            · omega
          · intro found
            cases found
        | succ depth =>
          rw [firstUnpaired_closing_succ (by decide), Option.map_eq_none_iff]
          exact ih pending.pop entry
    · rw [opensFrom_plain plain, firstUnpaired_other (Instruction.ne_loopStart_of_plain plain)
        (Instruction.ne_loopEnd_of_plain plain), Option.map_eq_none_iff]
      exact ih pending.later entry

/-- A backward scan finds the newest loop start that is open. -/
theorem scanBackward_eq_newest (instructions : List Instruction) (position : Nat) :
    scanBackward instructions position = (opensFrom 0 [] (instructions.take position))[0]? :=
  (getElem?_opensFrom (instructions.take position) 0).symm

/-- One instruction opens a loop, or closes one if any is open. -/
theorem length_opensFrom_singleton (position : Nat) (opens : List Nat) (instruction : Instruction) :
    (opensFrom position opens [instruction]).length + [instruction].count .loopEnd =
      opens.length + [instruction].count .loopStart +
        if instruction = .loopEnd ∧ opens = [] then 1 else 0 := by
  rcases instruction.bracket_cases with rfl | rfl | plain
  · simp [opensFrom]
  · cases opens with
    | nil => simp [opensFrom]
    | cons newest older => simp [opensFrom]
  · have notStart : instruction ≠ .loopStart := Instruction.ne_loopStart_of_plain plain
    have notEnd : instruction ≠ .loopEnd := Instruction.ne_loopEnd_of_plain plain
    rw [opensFrom_plain plain]
    simp [opensFrom, notStart, notEnd]

end Pairing

namespace Program

open Pairing (opensFrom opensFrom_append Pending)

variable {program : Program} {position : Nat}

/-- The stack of the whole program, read from a position on. -/
theorem opensFrom_split (inside : position ≤ program.length) :
    opensFrom 0 [] program.instructions =
      opensFrom position (opensFrom 0 [] (program.instructions.take position))
        (program.instructions.drop position) := by
  have taken : (program.instructions.take position).length = position := by
    rw [List.length_take]
    exact Nat.min_eq_left inside
  have cut := opensFrom_append 0 [] (program.instructions.take position)
    (program.instructions.drop position)
  rw [List.take_append_drop, taken, Nat.zero_add] at cut
  exact cut

/-- The unmatched loop starts are what the stack holds in the end. -/
theorem mem_opensFrom_iff_unmatched :
    position ∈ opensFrom 0 [] program.instructions ↔ program.Unmatched .forward position := by
  have atStart (here : program.get? position = some .loopStart) :
      position ∈ opensFrom 0 [] program.instructions ↔
        scanForward program.instructions position = none := by
    obtain ⟨inside, split⟩ := Pairing.instructions_split here
    obtain ⟨_, _, _, _, pending⟩ := Pairing.ofProgram_split here
    have following : program.instructions.drop position =
        .loopStart :: program.instructions.drop (position + 1) := by
      obtain ⟨bound, found⟩ := List.getElem?_eq_some_iff.1 here
      rw [List.drop_eq_getElem_cons bound, found]
    rw [opensFrom_split (Nat.le_of_lt inside), following, scanForward, Option.map_eq_none_iff]
    exact Pairing.mem_opensFrom_iff pending.push List.getElem?_cons_zero _
  constructor
  · intro isOpen
    rcases Pairing.mem_or_read_of_mem_opensFrom _ isOpen with none | ⟨-, here⟩
    · cases none
    · exact ⟨here, (atStart here).1 isOpen⟩
  · rintro ⟨here, alone⟩
    exact (atStart here).2 alone

/-- The unmatched loop ends are those met with an empty stack. -/
theorem unmatched_backward_iff :
    program.Unmatched .backward position ↔
      program.get? position = some .loopEnd ∧
        opensFrom 0 [] (program.instructions.take position) = [] := by
  unfold Unmatched
  apply and_congr_right
  intro _
  rw [scan, Pairing.scanBackward_eq_newest, List.getElem?_eq_none_iff, Nat.le_zero,
    List.length_eq_zero_iff]

/-- Every loop start read so far is still open or has been closed by one of the loop ends read so far
that are not unmatched. -/
theorem length_opensFrom_take (program : Program) {length : Nat} (inside : length ≤ program.length) :
    (opensFrom 0 [] (program.instructions.take length)).length +
        (program.instructions.take length).count .loopEnd =
      (program.instructions.take length).count .loopStart +
        (List.range length).countP (fun position => program.Unmatched .backward position) := by
  induction length with
  | zero => rfl
  | succ length ih =>
    have within : length < program.instructions.length := inside
    have before := ih (Nat.le_of_lt within)
    have here : program.get? length = some program.instructions[length] :=
      List.getElem?_eq_getElem within
    have taken : (program.instructions.take length).length = length := by
      rw [List.length_take]
      exact Nat.min_eq_left (Nat.le_of_lt within)
    have one := Pairing.length_opensFrom_singleton length
      (opensFrom 0 [] (program.instructions.take length)) program.instructions[length]
    have alone : program.Unmatched .backward length ↔ program.instructions[length] = .loopEnd ∧
        opensFrom 0 [] (program.instructions.take length) = [] := by
      rw [unmatched_backward_iff, here, Option.some.injEq]
    rw [List.take_succ_eq_append_getElem within, opensFrom_append, taken, Nat.zero_add,
      List.count_append, List.count_append, List.range_succ, List.countP_append,
      List.countP_singleton]
    simp only [decide_eq_true_eq, alone]
    omega

/-! ### How many there are, and where -/

theorem length_opensFrom_eq_countP (program : Program) :
    (opensFrom 0 [] program.instructions).length =
      (List.range program.length).countP (fun position => program.Unmatched .backward position) := by
  have counted := program.length_opensFrom_take (Nat.le_refl _)
  rw [length, List.take_length] at counted
  have balanced := program.balanced
  rw [length]
  omega

/-- There are as many unmatched loop starts as unmatched loop ends. -/
theorem length_unmatched (program : Program) :
    (program.unmatched .forward).length = (program.unmatched .backward).length := by
  have ordered := (Pending.nil 0).opensFrom program.instructions
  have distinct : (opensFrom 0 [] program.instructions).Nodup :=
    (List.Pairwise.of_cons ordered).imp Nat.ne_of_gt
  have distinctToo : (program.unmatched .forward).Nodup := List.nodup_range.filter _
  have same : (opensFrom 0 [] program.instructions).Perm (program.unmatched .forward) := by
    apply (List.perm_ext_iff_of_nodup distinct distinctToo).2
    intro position
    rw [mem_opensFrom_iff_unmatched, mem_unmatched]
  rw [← same.length_eq, length_opensFrom_eq_countP, List.countP_eq_length_filter]
  rfl

/-- An unmatched loop end stands before every unmatched loop start. -/
theorem Unmatched.lt {stop start : Nat} (ends : program.Unmatched .backward stop)
    (starts : program.Unmatched .forward start) : stop < start := by
  obtain ⟨here, empty⟩ := unmatched_backward_iff.1 ends
  have inside : stop < program.instructions.length := (List.getElem?_eq_some_iff.1 here).1
  have isOpen := mem_opensFrom_iff_unmatched.2 starts
  rw [opensFrom_split (Nat.le_of_lt inside), empty] at isOpen
  rcases Pairing.mem_or_read_of_mem_opensFrom _ isOpen with none | ⟨behind, -⟩
  · cases none
  · apply Nat.lt_of_le_of_ne behind
    rintro rfl
    rw [starts.1] at here
    cases here

/-- A program is well nested exactly if no bracket is unmatched. -/
theorem wellNested_iff :
    program.WellNested ↔ ∀ direction position, ¬ program.Unmatched direction position := by
  constructor
  · intro nested
    have noEnd (stop : Nat) : ¬ program.Unmatched .backward stop := by
      intro ends
      obtain ⟨here, empty⟩ := unmatched_backward_iff.1 ends
      obtain ⟨inside, found⟩ := List.getElem?_eq_some_iff.1 here
      have before := program.length_opensFrom_take (Nat.le_of_lt inside)
      -- With nothing open before it, the loop end closes one more loop than were opened.
      have beyond := nested (stop + 1)
      rw [List.take_succ_eq_append_getElem inside, found, List.count_append, List.count_append]
        at beyond
      rw [empty, List.length_nil] at before
      simp only [List.count_cons_self, List.count_nil, List.count_cons_of_ne, ne_eq, reduceCtorEq,
        not_false_eq_true] at beyond
      omega
    have noStart : program.unmatched .forward = [] := by
      apply List.eq_nil_of_length_eq_zero
      rw [length_unmatched, List.length_eq_zero_iff, List.eq_nil_iff_forall_not_mem]
      intro stop member
      exact noEnd stop (mem_unmatched.1 member)
    intro direction position alone
    cases direction with
    | forward =>
      have member := mem_unmatched.2 alone
      rw [noStart] at member
      cases member
    | backward => exact noEnd position alone
  · intro matched length
    rcases Nat.le_total length program.length with inside | beyond
    · have counted := program.length_opensFrom_take inside
      rw [List.countP_eq_zero.2] at counted
      · omega
      · intro position _
        simpa using matched .backward position
    · rw [List.take_of_length_le beyond]
      exact Nat.le_of_eq program.balanced.symm

end Program

namespace Machine

variable {σ : Type} [Sink σ] {machine final : Machine σ}

/-- A turn that jumps out of range stands at an unmatched bracket, and leaves the machine there. -/
theorem unmatched_of_returns {position : Nat} {direction : Direction}
    (fails : machine.turn.2 = .returns (.error (.faulted (.jumpOutOfRange position direction))) final) :
    machine.program.Unmatched direction position ∧
      final.state.accumulator.isTruthy = direction.jumpsOnTruthy ∧ final.position = position := by
  cases stops_of_returns fails with
  | faults here executed =>
    obtain ⟨rfl, rfl, truth, unresolved⟩ := execute_eq_jumpOutOfRange executed
    rw [machine.resolver_eq, Resolver.resolve_bracket here] at unresolved
    exact ⟨⟨here, unresolved⟩, truth, rfl⟩

/-- A machine at an unmatched bracket that is due to jump does jump out of range. -/
theorem returns_of_unmatched {direction : Direction}
    (alone : machine.program.Unmatched direction machine.position)
    (truth : machine.state.accumulator.isTruthy = direction.jumpsOnTruthy)
    (free : machine.limitReached = false) :
    machine.turn.2 =
      .returns (.error (.faulted (.jumpOutOfRange machine.position direction))) machine := by
  have unresolved : machine.resolver.resolve machine.program machine.position direction = none := by
    rw [machine.resolver_eq, Resolver.resolve_bracket alone.1]
    exact alone.2
  have executed : execute direction.bracket machine.position machine.program machine.resolver
      machine.state = (.error (.jumpOutOfRange machine.position direction), machine.state) := by
    rw [execute_bracket, if_pos truth]
    simp only [takeJump, unresolved]
  rw [turn_of_faults alone.1 free executed]

/-- Exactly the brackets without a partner can fault. They come in equal numbers, ends before starts,
and only in programs that are not well nested; every jump out of range that any number of calls return
names one of them, and such a bracket does fault when it is due to jump. -/
theorem jump_faults_unmatched (program : Program) :
    (program.unmatched .forward).length = (program.unmatched .backward).length ∧
    (∀ stop start, program.Unmatched .backward stop → program.Unmatched .forward start →
      stop < start) ∧
    ((∀ direction position, ¬ program.Unmatched direction position) ↔ program.WellNested) ∧
    (∀ (sink : σ) (config : Config) (words : Words) (reports : List (Report σ)),
      (create program sink config words).Calls reports → ∀ report ∈ reports,
      ∀ position direction,
        report.result = .error (.faulted (.jumpOutOfRange position direction)) →
        ¬ program.WellNested ∧ program.Unmatched direction position ∧ report.position = position ∧
          report.state.accumulator.isTruthy = direction.jumpsOnTruthy) ∧
    ∀ (machine : Machine σ) (direction : Direction), machine.program = program →
      machine.limitReached = false → program.Unmatched direction machine.position →
      machine.state.accumulator.isTruthy = direction.jumpsOnTruthy →
      machine.turn.2 =
        .returns (.error (.faulted (.jumpOutOfRange machine.position direction))) machine := by
  refine ⟨program.length_unmatched, ?_, Program.wellNested_iff.symm, ?_, ?_⟩
  · intro stop start ends starts
    exact ends.lt starts
  · intro sink config words reports calls report seen position direction fails
    obtain ⟨turns, result, final, returns, rfl⟩ := calls.exists_later seen
    obtain rfl : result = .error (.faulted (.jumpOutOfRange position direction)) := fails
    obtain ⟨alone, truth, place⟩ := unmatched_of_returns returns
    rw [(later_frame _ turns).1] at alone
    refine ⟨?_, alone, place, truth⟩
    intro nested
    exact Program.wellNested_iff.1 nested direction position alone
  · rintro machine direction rfl free alone truth
    exact returns_of_unmatched alone truth free

/-- The program `)(` falls through its loop end and faults at its loop start. -/
theorem jump_faults_unmatched_reversed :
    ∃ report, (create ⟨[.loopEnd, .loopStart], rfl⟩ Captured.empty {} (.cyclic [])).Calls [report] ∧
      report.result = .error (.faulted (.jumpOutOfRange 1 .forward)) ∧
      Program.Unmatched ⟨[.loopEnd, .loopStart], rfl⟩ .forward 1 := by
  have returns : Run.Returns
      (create ⟨[.loopEnd, .loopStart], rfl⟩ Captured.empty {} (.cyclic []))
      (.error (.faulted (.jumpOutOfRange 1 .forward))) _ _ := ⟨2, rfl⟩
  obtain ⟨turns, ends⟩ := returns_iff.1 ⟨_, returns⟩
  have calls := Calls.cons ends (.nil _)
  obtain ⟨-, -, -, named, -⟩ := jump_faults_unmatched (σ := Captured) ⟨[.loopEnd, .loopStart], rfl⟩
  obtain ⟨-, alone, -⟩ := named _ _ _ _ calls _ (List.mem_singleton_self _) 1 .forward rfl
  exact ⟨_, calls, rfl, alone⟩

end Machine

end Crosswire
