/-
Module: Crosswire.Proofs.StructuredLoops
Purpose: The machine that jumps between brackets runs while loops. A block has a big-step semantics of
  its own (`Block.Evaluates`): plain instructions one after the other, a loop skipped or repeated by
  the accumulator, a stop or a fault ending everything, and a cost. Every evaluation is followed by the
  machine turn by turn (`Evaluates.realized`), and a machine that ends has been following one
  (`exists_evaluates`), so the two agree on every well-nested program.
Imports: Crosswire.Proofs.Blocks, Crosswire.Proofs.Printing, Crosswire.Proofs.Turns
Main exports: Block.Outcome, Block.Evaluates, Machine.advanced, Block.Evaluates.realized,
  Block.exists_evaluates, Machine.structured_run
-/
import Crosswire.Proofs.Blocks
import Crosswire.Proofs.Printing
import Crosswire.Proofs.Turns

namespace Crosswire

/-- The accumulator lets no loop run: it is the word zero or `false`. -/
def State.Idle (state : State) : Prop :=
  state.accumulator = .zero ∨ state.accumulator = .boolean false

theorem State.idle_iff {state : State} : state.Idle ↔ state.accumulator.isTruthy = false := by
  unfold Idle Value.isTruthy Value.zero
  cases state.accumulator with
  | integer word => simp
  | boolean truth => simp

theorem State.not_idle_iff {state : State} : ¬ state.Idle ↔ state.accumulator.isTruthy = true := by
  rw [idle_iff, Bool.not_eq_false]

/-- A fault names the position of the instruction that was executed. -/
theorem position_of_execute_error {instruction : Instruction} {position : Nat} {program : Program}
    {resolver : Resolver} {state next : State} {fault : Fault}
    (executed : execute instruction position program resolver state = (.error fault, next)) :
    fault.position = position := by
  cases instruction <;> simp only [execute, combineOperand, takeJump] at executed <;>
    (repeat' split at executed) <;> cases executed <;> rfl

/-- Only a bracket jumps. -/
theorem isBracket_of_execute_jump {instruction : Instruction} {position target : Nat}
    {program : Program} {resolver : Resolver} {state next : State}
    (executed : execute instruction position program resolver state = (.ok (.jump target), next)) :
    instruction.isBracket = true := by
  cases instruction <;> simp only [execute, combineOperand, takeJump] at executed <;>
    (repeat' split at executed) <;> cases executed <;> rfl

namespace Block

theorem length_past_loop (before : List Instruction) (body : Block) :
    (before ++ Instruction.loopStart :: (body.flatten ++ [.loopEnd])).length =
      before.length + body.size + 2 := by
  simp only [size, List.length_append, List.length_cons, List.length_nil]
  omega

theorem exit_plain (before : List Instruction) (instruction : Instruction)
    (notBracket : instruction.isBracket = false) (rest : Block) :
    before.length + (plain instruction notBracket rest).size =
      (before ++ [instruction]).length + rest.size := by
  rw [size_plain, List.length_append, List.length_singleton]
  omega

theorem exit_loop (before : List Instruction) (body rest : Block) :
    before.length + (loop body rest).size =
      (before ++ Instruction.loopStart :: (body.flatten ++ [.loopEnd])).length + rest.size := by
  rw [length_past_loop, size_loop]
  omega

/-! ### The semantics of a block -/

/-- How the evaluation of a block comes to its end. -/
inductive Ending where
  /-- Nothing of the block is left to do. -/
  | completed
  /-- The stop instruction at this position was executed. -/
  | stopped (position : Nat)
  | faulted (fault : Fault)
deriving DecidableEq

/-- What the evaluation of a block gives. -/
structure Outcome where
  ending : Ending
  state : State
  /-- The prints, in the order in which they were asked for. -/
  printed : List Print
  /-- The number of instructions, brackets included, that the machine executes for it. -/
  cost : Nat

namespace Outcome

/-- The outcome together with what was printed and paid before. -/
def preceded (outcome : Outcome) (printed : List Print) (cost : Nat) : Outcome :=
  { outcome with printed := printed ++ outcome.printed, cost := cost + outcome.cost }

/-- The result of a run that evaluates a whole program. -/
def result (outcome : Outcome) : RunResult :=
  match outcome.ending with
  | .completed => .ok .endOfProgram
  | .stopped position => .ok (.ended position)
  | .faulted fault => .error (.faulted fault)

/-- Where the evaluation comes to rest, given where it goes on if the block completes. -/
def rest (outcome : Outcome) (exit : Nat) : Nat :=
  match outcome.ending with
  | .completed => exit
  | .stopped position => position
  | .faulted fault => fault.position

end Outcome

/-- The block, flattened from `position` on, leads from a state to an outcome. A plain instruction
costs 1, also the stop instruction, but not one that faults. A skipped loop costs 2, an iteration that
completes costs 2 more than its body, and one that does not costs 1 more. -/
inductive Evaluates : Nat → Block → State → Outcome → Prop where
  | done {position : Nat} {state : State} : Evaluates position .done state ⟨.completed, state, [], 0⟩
  | next {position : Nat} {instruction : Instruction} {notBracket : instruction.isBracket = false}
      {rest : Block} {state next : State} {outcome : Outcome}
      (executed : execute instruction position .empty .scanning state = (.ok .next, next))
      (onward : Evaluates (position + 1) rest next outcome) :
      Evaluates position (.plain instruction notBracket rest) state (outcome.preceded [] 1)
  | print {position : Nat} {instruction : Instruction} {notBracket : instruction.isBracket = false}
      {rest : Block} {state next : State} {value : Value} {outcome : Outcome}
      (executed : execute instruction position .empty .scanning state = (.ok (.print value), next))
      (onward : Evaluates (position + 1) rest next outcome) :
      Evaluates position (.plain instruction notBracket rest) state
        (outcome.preceded [⟨value, next.styled⟩] 1)
  | stop {position : Nat} {instruction : Instruction} {notBracket : instruction.isBracket = false}
      {rest : Block} {state next : State}
      (executed : execute instruction position .empty .scanning state = (.ok .halt, next)) :
      Evaluates position (.plain instruction notBracket rest) state
        ⟨.stopped position, next, [], 1⟩
  | fault {position : Nat} {instruction : Instruction} {notBracket : instruction.isBracket = false}
      {rest : Block} {state next : State} {fault : Fault}
      (executed : execute instruction position .empty .scanning state = (.error fault, next)) :
      Evaluates position (.plain instruction notBracket rest) state ⟨.faulted fault, next, [], 0⟩
  | skip {position : Nat} {body rest : Block} {state : State} {outcome : Outcome}
      (idle : state.Idle)
      (onward : Evaluates (position + body.size + 2) rest state outcome) :
      Evaluates position (.loop body rest) state (outcome.preceded [] 2)
  | again {position : Nat} {body rest : Block} {state next : State} {printed : List Print}
      {cost : Nat} {outcome : Outcome} (busy : ¬ state.Idle)
      (iteration : Evaluates (position + 1) body state ⟨.completed, next, printed, cost⟩)
      (still : ¬ next.Idle) (onward : Evaluates position (.loop body rest) next outcome) :
      Evaluates position (.loop body rest) state (outcome.preceded printed (cost + 2))
  | last {position : Nat} {body rest : Block} {state next : State} {printed : List Print}
      {cost : Nat} {outcome : Outcome} (busy : ¬ state.Idle)
      (iteration : Evaluates (position + 1) body state ⟨.completed, next, printed, cost⟩)
      (idle : next.Idle) (onward : Evaluates (position + body.size + 2) rest next outcome) :
      Evaluates position (.loop body rest) state (outcome.preceded printed (cost + 2))
  | cut {position : Nat} {body rest : Block} {state : State} {outcome : Outcome}
      (busy : ¬ state.Idle) (iteration : Evaluates (position + 1) body state outcome)
      (short : outcome.ending ≠ .completed) :
      Evaluates position (.loop body rest) state (outcome.preceded [] 1)

end Block

/-! ### Following a block turn by turn -/

namespace Machine

variable {σ : Type}

/-- The machine with some of a block before it, the block, and something behind it in its program,
free to execute any number of instructions. -/
structure Holds (machine : Machine σ) (before : List Instruction) (block : Block)
    (behind : List Instruction) : Prop where
  instructions : machine.program.instructions = before ++ block.flatten ++ behind
  unlimited : machine.config.maxSteps = none

namespace Holds

variable {machine : Machine σ} {before behind : List Instruction} {body rest : Block}
  {instruction : Instruction} {notBracket : instruction.isBracket = false}

theorem free {block : Block} (holds : machine.Holds before block behind) :
    machine.limitReached = false := by
  simp only [limitReached, holds.unlimited]

theorem tail (holds : machine.Holds before (.plain instruction notBracket rest) behind) :
    machine.Holds (before ++ [instruction]) rest behind := by
  refine ⟨?_, holds.unlimited⟩
  rw [holds.instructions]
  simp [Block.flatten]

theorem ofBody (holds : machine.Holds before (.loop body rest) behind) :
    machine.Holds (before ++ [.loopStart]) body (.loopEnd :: (rest.flatten ++ behind)) := by
  refine ⟨?_, holds.unlimited⟩
  rw [holds.instructions]
  simp [Block.flatten]

theorem ofRest (holds : machine.Holds before (.loop body rest) behind) :
    machine.Holds (before ++ .loopStart :: (body.flatten ++ [.loopEnd])) rest behind := by
  refine ⟨?_, holds.unlimited⟩
  rw [holds.instructions]
  simp [Block.flatten]

theorem get?_plain (holds : machine.Holds before (.plain instruction notBracket rest) behind)
    (position : machine.position = before.length) :
    machine.program.get? machine.position = some instruction := by
  rw [Program.get?, holds.instructions, position]
  simp [Block.flatten]

theorem get?_loopStart (holds : machine.Holds before (.loop body rest) behind)
    (position : machine.position = before.length) :
    machine.program.get? machine.position = some .loopStart := by
  rw [Program.get?, holds.instructions, position]
  simp [Block.flatten]

theorem get?_loopEnd (holds : machine.Holds before (.loop body rest) behind)
    (position : machine.position = before.length + 1 + body.size) :
    machine.program.get? machine.position = some .loopEnd := by
  have split : before ++ (Block.loop body rest).flatten ++ behind =
      (before ++ .loopStart :: body.flatten) ++ .loopEnd :: (rest.flatten ++ behind) := by
    simp [Block.flatten]
  have length : before.length + 1 + body.size = (before ++ .loopStart :: body.flatten).length := by
    simp only [Block.size, List.length_append, List.length_cons]
    omega
  rw [Program.get?, holds.instructions, position, split, length]
  simp

/-- The machine executes a plain instruction as the semantics of blocks does. -/
theorem execute_eq (_ : machine.Holds before (.plain instruction notBracket rest) behind)
    (position : machine.position = before.length) :
    execute instruction machine.position machine.program machine.resolver machine.state =
      execute instruction before.length .empty .scanning machine.state := by
  rw [position]
  exact execute_plain notBracket before.length _ _ _ _ machine.state

end Holds

variable [Sink σ]

/-- The machine moved on: in a new state, at a new position, after some prints and some steps. -/
def advanced (machine : Machine σ) (state : State) (position : Nat) (printed : List Print)
    (cost : Nat) : Machine σ :=
  { machine with
    state
    position
    steps := machine.steps + cost
    renderer := (deliver printed machine.renderer machine.sink).1
    sink := (deliver printed machine.renderer machine.sink).2 }

@[simp] theorem position_advanced (machine : Machine σ) (state : State) (position : Nat)
    (printed : List Print) (cost : Nat) :
    (machine.advanced state position printed cost).position = position := rfl

/-- Moving on twice is moving on once. -/
theorem advanced_advanced (machine : Machine σ) (first second : State) (here there : Nat)
    (printed later : List Print) (cost more : Nat) :
    (machine.advanced first here printed cost).advanced second there later more =
      machine.advanced second there (printed ++ later) (cost + more) := by
  simp only [advanced, deliver_append, Nat.add_assoc]

theorem Holds.advanced {machine : Machine σ} {before behind : List Instruction} {block : Block}
    (holds : machine.Holds before block behind) (state : State) (position : Nat)
    (printed : List Print) (cost : Nat) :
    (machine.advanced state position printed cost).Holds before block behind :=
  ⟨holds.instructions, holds.unlimited⟩

/-! ### The turns that a block takes -/

section Turns

variable {machine : Machine σ} {before behind : List Instruction} {body rest : Block}
  {instruction : Instruction} {notBracket : instruction.isBracket = false} {next : State}

/-- An instruction that only changes the state. -/
theorem turn_next (holds : machine.Holds before (.plain instruction notBracket rest) behind)
    (position : machine.position = before.length)
    (executed : execute instruction before.length .empty .scanning machine.state =
      (.ok .next, next)) :
    machine.turn.2 = .goesOn (machine.advanced next (before.length + 1) [] 1) := by
  have here := holds.get?_plain position
  rw [← holds.execute_eq position] at executed
  rw [turn_of_acts here holds.free executed, ← position]
  rfl

/-- A print into a sink that takes it. -/
theorem turn_print {value : Value} (accepting : Sink.Accepting σ)
    (holds : machine.Holds before (.plain instruction notBracket rest) behind)
    (position : machine.position = before.length)
    (executed : execute instruction before.length .empty .scanning machine.state =
      (.ok (.print value), next)) :
    machine.turn.2 =
      .goesOn (machine.advanced next (before.length + 1) [⟨value, next.styled⟩] 1) := by
  have here := holds.get?_plain position
  rw [← holds.execute_eq position] at executed
  rw [turn_of_acts here holds.free executed, ← position]
  exact print_of_accepting accepting _ value

/-- The stop instruction. -/
theorem turn_stop (holds : machine.Holds before (.plain instruction notBracket rest) behind)
    (position : machine.position = before.length)
    (executed : execute instruction before.length .empty .scanning machine.state =
      (.ok .halt, next)) :
    machine.turn.2 =
      .returns (.ok (.ended before.length)) (machine.advanced next before.length [] 1) := by
  have here := holds.get?_plain position
  rw [← holds.execute_eq position] at executed
  rw [turn_of_acts here holds.free executed, ← position]
  rfl

/-- An instruction that faults. -/
theorem turn_fault {fault : Fault}
    (holds : machine.Holds before (.plain instruction notBracket rest) behind)
    (position : machine.position = before.length)
    (executed : execute instruction before.length .empty .scanning machine.state =
      (.error fault, next)) :
    machine.turn.2 =
      .returns (.error (.faulted fault)) (machine.advanced next before.length [] 0) := by
  have here := holds.get?_plain position
  rw [← holds.execute_eq position] at executed
  rw [turn_of_faults here holds.free executed, ← position]
  rfl

/-- The start of a loop that runs. -/
theorem turn_enter (holds : machine.Holds before (.loop body rest) behind)
    (position : machine.position = before.length) (busy : ¬ machine.state.Idle) :
    machine.turn.2 = .goesOn (machine.advanced machine.state (before.length + 1) [] 1) := by
  have executed : execute .loopStart machine.position machine.program machine.resolver
      machine.state = (.ok .next, machine.state) := by
    simp only [execute, State.not_idle_iff.1 busy, if_true]
  rw [turn_of_acts (holds.get?_loopStart position) holds.free executed, ← position]
  rfl

/-- The start of a loop that is skipped: the machine lands on the end of the loop. -/
theorem turn_skip (holds : machine.Holds before (.loop body rest) behind)
    (position : machine.position = before.length) (idle : machine.state.Idle) :
    machine.turn.2 =
      .goesOn (machine.advanced machine.state (before.length + 1 + body.size) [] 1) := by
  have here := holds.get?_loopStart position
  have target : machine.resolver.resolve machine.program machine.position .forward =
      some (before.length + 1 + body.size) := by
    rw [machine.resolver_eq, Resolver.resolve_loopStart here, holds.instructions, position]
    exact Block.scanForward_loop before behind body rest
  have executed : execute .loopStart machine.position machine.program machine.resolver
      machine.state = (.ok (.jump (before.length + 1 + body.size)), machine.state) := by
    simp only [execute, takeJump, State.idle_iff.1 idle, target, Bool.false_eq_true, if_false]
  rw [turn_of_acts here holds.free executed]
  rfl

/-- The end of a loop that is left. -/
theorem turn_leave (holds : machine.Holds before (.loop body rest) behind)
    (position : machine.position = before.length + 1 + body.size) (idle : machine.state.Idle) :
    machine.turn.2 =
      .goesOn (machine.advanced machine.state (before.length + body.size + 2) [] 1) := by
  have executed : execute .loopEnd machine.position machine.program machine.resolver
      machine.state = (.ok .next, machine.state) := by
    simp only [execute, State.idle_iff.1 idle, Bool.false_eq_true, if_false]
  have onward : before.length + body.size + 2 = machine.position + 1 := by
    omega
  rw [turn_of_acts (holds.get?_loopEnd position) holds.free executed, onward]
  rfl

/-- The end of a loop that runs again: the machine lands on the start of the loop. -/
theorem turn_repeat (holds : machine.Holds before (.loop body rest) behind)
    (position : machine.position = before.length + 1 + body.size) (busy : ¬ machine.state.Idle) :
    machine.turn.2 = .goesOn (machine.advanced machine.state before.length [] 1) := by
  have here := holds.get?_loopEnd position
  have target : machine.resolver.resolve machine.program machine.position .backward =
      some before.length := by
    rw [machine.resolver_eq, Resolver.resolve_loopEnd here, holds.instructions, position]
    exact Block.scanBackward_loop before behind body rest
  have executed : execute .loopEnd machine.position machine.program machine.resolver
      machine.state = (.ok (.jump before.length), machine.state) := by
    simp only [execute, takeJump, State.not_idle_iff.1 busy, target, if_true]
  rw [turn_of_acts here holds.free executed]
  rfl

end Turns

/-! ### Stretches of turns -/

/-- The machine goes on to a state and a position, with these prints and as many turns as it pays. -/
def Reaches (machine : Machine σ) (state : State) (position : Nat) (printed : List Print)
    (cost : Nat) : Prop :=
  machine.after? cost = some (machine.advanced state position printed cost)

namespace Reaches

variable {machine : Machine σ} {first second : State} {here there : Nat}
  {printed later : List Print} {cost more : Nat}

theorem of_turn (turned : machine.turn.2 = .goesOn (machine.advanced first here printed 1)) :
    machine.Reaches first here printed 1 :=
  after?_one_of_goesOn turned

theorem trans (reaches : machine.Reaches first here printed cost)
    (onward : (machine.advanced first here printed cost).Reaches second there later more) :
    machine.Reaches second there (printed ++ later) (cost + more) := by
  have reached := after?_trans reaches onward
  rw [advanced_advanced] at reached
  exact reached

end Reaches

section Loops

variable {machine : Machine σ} {before behind : List Instruction} {body rest : Block}
  {next : State} {printed : List Print} {cost : Nat}

/-- A skipped loop takes two turns, one for each bracket. -/
theorem reaches_skip (holds : machine.Holds before (.loop body rest) behind)
    (position : machine.position = before.length) (idle : machine.state.Idle) :
    machine.Reaches machine.state (before.length + body.size + 2) [] 2 :=
  (Reaches.of_turn (turn_skip holds position idle)).trans
    (Reaches.of_turn (turn_leave (holds.advanced _ _ _ _) rfl idle))

/-- An iteration begins at the start of the loop and comes to its end. -/
theorem reaches_iteration (holds : machine.Holds before (.loop body rest) behind)
    (position : machine.position = before.length) (busy : ¬ machine.state.Idle)
    (iteration : (machine.advanced machine.state (before.length + 1) [] 1).Reaches next
      ((before ++ [Instruction.loopStart]).length + body.size) printed cost) :
    machine.Reaches next (before.length + 1 + body.size) printed (cost + 1) := by
  have reached := (Reaches.of_turn (turn_enter holds position busy)).trans iteration
  rw [List.nil_append, List.length_append, List.length_singleton, Nat.add_comm 1] at reached
  exact reached

/-- After an iteration that leaves the accumulator truthy the machine is at the start of the loop
again. -/
theorem reaches_again (holds : machine.Holds before (.loop body rest) behind)
    (position : machine.position = before.length) (busy : ¬ machine.state.Idle)
    (iteration : (machine.advanced machine.state (before.length + 1) [] 1).Reaches next
      ((before ++ [Instruction.loopStart]).length + body.size) printed cost)
    (still : ¬ next.Idle) : machine.Reaches next before.length printed (cost + 2) := by
  have reached := (reaches_iteration holds position busy iteration).trans
    (Reaches.of_turn (turn_repeat (holds.advanced _ _ _ _) rfl still))
  rw [List.append_nil] at reached
  exact reached

/-- After an iteration that leaves the accumulator falsy the machine is behind the loop. -/
theorem reaches_last (holds : machine.Holds before (.loop body rest) behind)
    (position : machine.position = before.length) (busy : ¬ machine.state.Idle)
    (iteration : (machine.advanced machine.state (before.length + 1) [] 1).Reaches next
      ((before ++ [Instruction.loopStart]).length + body.size) printed cost)
    (idle : next.Idle) :
    machine.Reaches next (before.length + body.size + 2) printed (cost + 2) := by
  have reached := (reaches_iteration holds position busy iteration).trans
    (Reaches.of_turn (turn_leave (holds.advanced _ _ _ _) rfl idle))
  rw [List.append_nil] at reached
  exact reached

end Loops

/-! ### Every evaluation is followed -/

open Block (Outcome Evaluates)

/-- The machine does what an outcome says: it goes on to `exit` if the block completes, and returns
otherwise. -/
def Realizes (machine : Machine σ) (outcome : Outcome) (exit : Nat) : Prop :=
  match outcome.ending with
  | .completed => machine.Reaches outcome.state exit outcome.printed outcome.cost
  | _ => ∃ turns, machine.EndsAfter turns outcome.result
      (machine.advanced outcome.state (outcome.rest exit) outcome.printed outcome.cost)

namespace Realizes

variable {machine : Machine σ} {outcome : Outcome} {exit : Nat}

/-- What was done before an outcome belongs to the outcome that includes it. -/
theorem preceded {state : State} {position : Nat} {printed : List Print} {cost : Nat}
    (reaches : machine.Reaches state position printed cost)
    (onward : (machine.advanced state position printed cost).Realizes outcome exit) :
    machine.Realizes (outcome.preceded printed cost) exit := by
  obtain ⟨ending, final, later, more⟩ := outcome
  cases ending with
  | completed => exact reaches.trans onward
  | stopped halt =>
    obtain ⟨turns, ends⟩ := onward
    rw [advanced_advanced] at ends
    exact ⟨cost + turns, ends.prepend reaches⟩
  | faulted fault =>
    obtain ⟨turns, ends⟩ := onward
    rw [advanced_advanced] at ends
    exact ⟨cost + turns, ends.prepend reaches⟩

/-- An evaluation that does not complete does not depend on where it would have gone on. -/
theorem of_short {other : Nat} (realizes : machine.Realizes outcome exit)
    (short : outcome.ending ≠ .completed) : machine.Realizes outcome other := by
  obtain ⟨ending, final, printed, cost⟩ := outcome
  cases ending with
  | completed => exact absurd rfl short
  | stopped halt => exact realizes
  | faulted fault => exact realizes

end Realizes

/-- A machine that stands at a block follows every evaluation of the block. -/
theorem realizes_of_evaluates (accepting : Sink.Accepting σ) {position : Nat} {block : Block}
    {state : State} {outcome : Outcome} (evaluates : Evaluates position block state outcome)
    {machine : Machine σ} {before behind : List Instruction}
    (holds : machine.Holds before block behind) (length : before.length = position)
    (here : machine.position = before.length) (same : machine.state = state) :
    machine.Realizes outcome (before.length + block.size) := by
  induction evaluates generalizing machine before behind with
  | done =>
    subst same
    exact congrArg (fun place => some { machine with position := place }) here
  | @next position instruction notBracket rest state next outcome executed onward ih =>
    subst length same
    have reaches := Reaches.of_turn (turn_next holds here executed)
    rw [Block.exit_plain before instruction notBracket rest]
    exact .preceded reaches (ih (holds.tail.advanced _ _ _ _) (by simp) (by simp) rfl)
  | @print position instruction notBracket rest state next value outcome executed onward ih =>
    subst length same
    have reaches := Reaches.of_turn (turn_print accepting holds here executed)
    rw [Block.exit_plain before instruction notBracket rest]
    exact .preceded reaches (ih (holds.tail.advanced _ _ _ _) (by simp) (by simp) rfl)
  | stop executed =>
    subst length same
    exact ⟨0, .of_returns (turn_stop holds here executed)⟩
  | fault executed =>
    subst length same
    refine ⟨0, .of_returns ?_⟩
    rw [turn_fault holds here executed]
    simp only [Outcome.result, Outcome.rest, position_of_execute_error executed]
  | @skip position body rest state outcome idle onward ih =>
    subst length same
    have behindLoop := Block.length_past_loop before body
    rw [Block.exit_loop before body rest]
    exact .preceded (reaches_skip holds here idle)
      (ih (holds.ofRest.advanced _ _ _ _) behindLoop behindLoop.symm rfl)
  | @again _ body rest _ next printed cost outcome busy iteration still onward bodyIh loopIh =>
    subst length same
    have completes := bodyIh (holds.ofBody.advanced machine.state (before.length + 1) [] 1)
      (by simp) (by simp) rfl
    exact .preceded (reaches_again holds here busy completes still)
      (loopIh (holds.advanced _ _ _ _) rfl rfl rfl)
  | @last _ body rest _ next printed cost outcome busy iteration idle onward bodyIh restIh =>
    subst length same
    have completes := bodyIh (holds.ofBody.advanced machine.state (before.length + 1) [] 1)
      (by simp) (by simp) rfl
    have behindLoop := Block.length_past_loop before body
    rw [Block.exit_loop before body rest]
    exact .preceded (reaches_last holds here busy completes idle)
      (restIh (holds.ofRest.advanced _ _ _ _) behindLoop behindLoop.symm rfl)
  | cut busy iteration short ih =>
    subst length same
    have entered := Reaches.of_turn (turn_enter holds here busy)
    have realizes := ih (holds.ofBody.advanced machine.state (before.length + 1) [] 1)
      (by simp) (by simp) rfl
    exact .preceded entered (realizes.of_short short)

/-! ### A machine that ends has followed an evaluation -/

/-- If a machine that stands at a block ends at all, the block has an evaluation from its state. -/
theorem exists_evaluates (accepting : Sink.Accepting σ) {turns : Nat} {block : Block}
    {machine final : Machine σ} {result : RunResult} {before behind : List Instruction}
    (holds : machine.Holds before block behind) (here : machine.position = before.length)
    (ends : machine.EndsAfter turns result final) :
    ∃ outcome, Evaluates before.length block machine.state outcome := by
  -- Every stretch of the block takes a turn off what is left of the run.
  induction turns using Nat.strongRecOn generalizing machine block before behind with
  | ind turns ih =>
    cases block with
    | done => exact ⟨_, .done⟩
    | plain instruction notBracket rest =>
      have onward {next : State} {printed : List Print}
          (reaches : machine.Reaches next (before.length + 1) printed 1) :
          ∃ outcome, Evaluates (before.length + 1) rest next outcome := by
        obtain ⟨left, spent, ends⟩ := ends.remaining reaches
        have evaluated := ih left (by omega) (holds.tail.advanced _ _ _ _) (by simp) ends
        rw [List.length_append, List.length_singleton] at evaluated
        exact evaluated
      rcases executed : execute instruction before.length .empty .scanning machine.state with
        ⟨fault | effect, next⟩
      · exact ⟨_, .fault executed⟩
      · cases effect with
        | next =>
          obtain ⟨outcome, evaluates⟩ := onward (Reaches.of_turn (turn_next holds here executed))
          exact ⟨_, .next executed evaluates⟩
        | print value =>
          obtain ⟨outcome, evaluates⟩ :=
            onward (Reaches.of_turn (turn_print accepting holds here executed))
          exact ⟨_, .print executed evaluates⟩
        | halt => exact ⟨_, .stop executed⟩
        | jump target =>
          rw [isBracket_of_execute_jump executed] at notBracket
          cases notBracket
    | loop body rest =>
      have onward {next : State} {printed : List Print} {cost : Nat}
          (reaches : machine.Reaches next (before.length + body.size + 2) printed (cost + 1)) :
          ∃ outcome, Evaluates (before.length + body.size + 2) rest next outcome := by
        obtain ⟨left, spent, ends⟩ := ends.remaining reaches
        have behindLoop := Block.length_past_loop before body
        have evaluated := ih left (by omega) (holds.ofRest.advanced _ _ _ _) behindLoop.symm ends
        rw [behindLoop] at evaluated
        exact evaluated
      by_cases idle : machine.state.Idle
      · obtain ⟨outcome, evaluates⟩ := onward (reaches_skip holds here idle)
        exact ⟨_, .skip idle evaluates⟩
      · have inside := holds.ofBody.advanced machine.state (before.length + 1) [] 1
        obtain ⟨left, spent, bodyEnds⟩ :=
          ends.remaining (Reaches.of_turn (turn_enter holds here idle))
        obtain ⟨⟨ending, next, printed, cost⟩, iteration⟩ :=
          ih left (by omega) inside (by simp) bodyEnds
        have realizes := realizes_of_evaluates accepting iteration inside rfl (by simp) rfl
        rw [List.length_append, List.length_singleton] at iteration
        by_cases completed : ending = .completed
        · subst completed
          by_cases idleAfter : next.Idle
          · obtain ⟨outcome, evaluates⟩ :=
              onward (reaches_last holds here idle realizes idleAfter)
            exact ⟨_, .last idle iteration idleAfter evaluates⟩
          · obtain ⟨left, spent, ends⟩ :=
              ends.remaining (reaches_again holds here idle realizes idleAfter)
            obtain ⟨outcome, evaluates⟩ := ih left (by omega) (holds.advanced _ _ _ _) rfl ends
            exact ⟨_, .again idle iteration idleAfter evaluates⟩
        · exact ⟨_, .cut idle iteration completed⟩

/-! ### Running a well-nested program -/

/-- A run of a whole block ends as the evaluation of the block does. -/
theorem endsAfter_of_evaluates (accepting : Sink.Accepting σ) {machine : Machine σ} {block : Block}
    {outcome : Outcome} (holds : machine.Holds [] block []) (here : machine.position = 0)
    (evaluates : Evaluates 0 block machine.state outcome) :
    ∃ turns, machine.EndsAfter turns outcome.result
      (machine.advanced outcome.state (outcome.rest block.size) outcome.printed outcome.cost) := by
  have realizes := realizes_of_evaluates accepting evaluates holds rfl here rfl
  rw [List.length_nil, Nat.zero_add] at realizes
  obtain ⟨ending, state, printed, cost⟩ := outcome
  cases ending with
  | completed =>
    -- Behind the last instruction the machine notices the end of the program.
    have outside : machine.program.get? block.size = none := by
      rw [Program.get?, holds.instructions]
      simp [Block.size]
    have returns : (machine.advanced state block.size printed cost).turn.2 =
        .returns (.ok .endOfProgram) (machine.advanced state block.size printed cost) := by
      rw [turn_of_outside outside]
    exact ⟨cost + 0, EndsAfter.prepend realizes (.of_returns returns)⟩
  | stopped position => exact realizes
  | faulted fault => exact realizes

/-- A well-nested program is one block written out, and a run of it without a step limit into a sink
that refuses nothing returns exactly if the block has an evaluation. Then result, final state, final
position and steps are those of the evaluation, and each print of the evaluation has reached the sink
in order. -/
theorem structured_run (accepting : Sink.Accepting σ) (program : Program)
    (nested : program.WellNested) (sink : σ) (config : Config) (unlimited : config.maxSteps = none)
    (words : Words) :
    ∃ block : Block,
      (∀ other : Block, other.flatten = program.instructions ↔ other = block) ∧
      ((∃ result final events,
          Run.Returns (create program sink config words) result final events) ↔
        ∃ outcome, Evaluates 0 block .initial outcome) ∧
      ∀ result final events outcome,
        Run.Returns (create program sink config words) result final events →
        Evaluates 0 block .initial outcome →
        result = outcome.result ∧ final.state = outcome.state ∧ final.steps = outcome.cost ∧
          final.position = outcome.rest program.length ∧
          ∃ written, final.sink = Sink.writeAll written sink ∧
            written.map (·.map StyledChar.character) =
              outcome.printed.map (·.value.glyphs) := by
  obtain ⟨block, flattened⟩ := nested.exists_block
  have holds : (create program sink config words).Holds [] block [] := by
    refine ⟨?_, unlimited⟩
    rw [flattened, List.append_nil, List.nil_append]
    rfl
  have size : block.size = program.length := congrArg List.length flattened
  refine ⟨block, fun other => ⟨fun same => ?_, fun same => same ▸ flattened⟩, ⟨?_, ?_⟩, ?_⟩
  · exact Block.flatten_injective (same.trans flattened.symm)
  · rintro ⟨result, final, events, returns⟩
    obtain ⟨turns, ends⟩ := returns_iff.1 ⟨events, returns⟩
    exact exists_evaluates accepting holds rfl ends
  · rintro ⟨outcome, evaluates⟩
    obtain ⟨events, returns⟩ := returns_iff.2 (endsAfter_of_evaluates accepting holds rfl evaluates)
    exact ⟨_, _, events, returns⟩
  · intro result final events outcome returns evaluates
    obtain ⟨turns, ends⟩ := returns_iff.1 ⟨events, returns⟩
    obtain ⟨others, too⟩ := endsAfter_of_evaluates accepting holds rfl evaluates
    obtain ⟨-, rfl, rfl⟩ := ends.unique too
    obtain ⟨written, delivered, texts⟩ := writeAll_deliver outcome.printed
      (create program sink config words).renderer sink
    refine ⟨rfl, rfl, Nat.zero_add _, ?_, written, delivered, texts⟩
    rw [← size]
    rfl

/-- The block of `-(!0)`, a loop whose body runs once. -/
def onePrint : Block :=
  .plain .decrement rfl (.loop (.plain .print rfl (.plain .zero rfl .done)) .done)

/-- A run of `-(!0)` returns, and has executed the five instructions that its block costs. -/
theorem structured_run_onePrint :
    ∃ result final events,
      Run.Returns (create onePrint.program Captured.empty {} (.cyclic [])) result final events ∧
        final.steps = 5 := by
  obtain ⟨block, unique, returns, agree⟩ := structured_run Captured.accepting onePrint.program
    onePrint.wellNested_program Captured.empty {} rfl (.cyclic [])
  obtain rfl : onePrint = block := (unique onePrint).1 rfl
  have busy : ¬ State.Idle { State.initial with accumulator := Value.zero.decrement } := by
    simp [State.Idle, Value.zero, Value.decrement]
  have evaluates : Evaluates 0 onePrint .initial _ :=
    .next rfl (.last busy (.print rfl (.next rfl .done)) (.inl rfl) .done)
  obtain ⟨result, final, events, returned⟩ := returns.2 ⟨_, evaluates⟩
  obtain ⟨-, -, steps, -⟩ := agree result final events _ returned evaluates
  exact ⟨result, final, events, returned, steps⟩

end Machine

end Crosswire
