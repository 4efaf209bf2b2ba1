/-
Module: Crosswire.Proofs.StraightLine
Purpose: Code without brackets. A stretch of plain instructions is passed from its first to its last
  instruction if none of them stops or faults; `Passes` says so of states alone, together with the steps
  that are taken, and passing stretches one after the other is passing the whole. Wherever such a stretch
  stands in a program, a machine at its start executes exactly these steps and goes on behind it
  (`Machine.performs_of_passes`); `Machine.Performs` puts into one what a machine executes and what it
  becomes.
Imports: Crosswire.Proofs.Retrying, Crosswire.Proofs.History, Crosswire.Proofs.StructuredLoops
Main exports: Step.print?, State.through, Passes, Passes.append, Passes.final_eq_through,
  Machine.Performs, Machine.Performs.trans, Machine.Performs.returns, Machine.performs_of_passes
-/
import Crosswire.Proofs.History
import Crosswire.Proofs.Retrying
import Crosswire.Proofs.StructuredLoops

namespace Crosswire

/-- The print that a step asks for, if it asks for one. -/
def Step.print? (step : Step) : Option Print :=
  match step.effect with
  | .print value => some ⟨value, step.state.styled⟩
  | _ => none

/-! ### Passing plain instructions -/

/-- The plain instructions `code`, standing from `position` on, are passed with these steps from one
state to another: each is executed, and asks to go on or to print. -/
inductive Passes : Nat → List Instruction → State → List Step → State → Prop where
  | done {position : Nat} {state : State} : Passes position [] state [] state
  | step {position : Nat} {instruction : Instruction} {code : List Instruction}
      {state next final : State} {effect : Effect} {steps : List Step}
      (plain : instruction.isBracket = false)
      (executed : execute instruction position .empty .scanning state = (.ok effect, next))
      (onward : effect ≠ .halt) (later : Passes (position + 1) code next steps final) :
      Passes position (instruction :: code) state
        (⟨position, instruction, state, effect⟩ :: steps) final

namespace Passes

variable {position : Nat} {code more : List Instruction} {state middle final : State}
  {steps others : List Step}

theorem append (passes : Passes position code state steps middle)
    (onward : Passes (position + code.length) more middle others final) :
    Passes position (code ++ more) state (steps ++ others) final := by
  induction passes with
  | done => exact onward
  | @step position instruction code _ _ _ _ _ plain executed goesOn later ih =>
    have shift : position + (instruction :: code).length = position + 1 + code.length := by
      rw [List.length_cons]
      omega
    rw [shift] at onward
    exact .step plain executed goesOn (ih onward)

/-- Only plain instructions are passed. -/
theorem plain (passes : Passes position code state steps final) {instruction : Instruction}
    (member : instruction ∈ code) : instruction.isBracket = false := by
  induction passes with
  | done => cases member
  | step notBracket _ _ _ ih =>
    rcases List.mem_cons.1 member with rfl | later
    · exact notBracket
    · exact ih later

end Passes

/-- What executing a plain instruction does to the state does not depend on where it stands. -/
theorem state_execute_plain {instruction : Instruction} (plain : instruction.isBracket = false)
    (position other : Nat) (state : State) :
    (execute instruction position .empty .scanning state).2 =
      (execute instruction other .empty .scanning state).2 := by
  have combined (combine : Value → Value → Value) :
      (combineOperand combine position state).2 = (combineOperand combine other state).2 := by
    unfold combineOperand
    split <;> rfl
  cases instruction with
  | add => exact combined Value.add
  | nand => exact combined Value.nand
  | pop =>
    simp only [execute]
    cases state.mode.routing.pushPop with
    | inner => exact combined _
    | outer => cases state.popStack? <;> rfl
  | loopStart => cases plain
  | loopEnd => cases plain
  | _ => rfl

/-- The state after instructions have been executed in order. -/
def State.through (state : State) (code : List Instruction) : State :=
  code.foldl (fun current instruction => (execute instruction 0 .empty .scanning current).2) state

/-- Passing instructions leads to the state that executing them leaves. -/
theorem Passes.final_eq_through {position : Nat} {code : List Instruction} {state final : State}
    {steps : List Step} (passes : Passes position code state steps final) :
    final = state.through code := by
  induction passes with
  | done => rfl
  | @step position instruction code state _ _ _ _ plain executed _ _ ih =>
    have same := state_execute_plain plain position 0 state
    rw [executed] at same
    rw [ih, State.through, State.through, List.foldl_cons, ← same]

/-- Plain instructions are a block without loops. -/
theorem Block.exists_of_plain {code : List Instruction}
    (plain : ∀ instruction ∈ code, instruction.isBracket = false) :
    ∃ block : Block, block.flatten = code := by
  induction code with
  | nil => exact ⟨.done, rfl⟩
  | cons instruction rest ih =>
    obtain ⟨block, flattened⟩ :=
      ih fun other member => plain other (List.mem_cons_of_mem _ member)
    refine ⟨.plain instruction (plain instruction (List.mem_cons_self ..)) block, ?_⟩
    rw [flatten, flattened]

/-! ### Machines on straight stretches -/

namespace Machine

variable {σ : Type} [Sink σ] {machine next : Machine σ}

theorem history_add (machine : Machine σ) (first second : Nat) :
    machine.history (first + second) =
      machine.history first ++ (machine.later first).history second := by
  induction second with
  | zero => exact (List.append_nil _).symm
  | succ second ih =>
    rw [← Nat.add_assoc, history_succ, history_succ, ih, List.append_assoc, later_add]

/-- A turn that goes on has executed the instruction at the machine's position. -/
theorem step?_of_goesOn {instruction : Instruction} (goes : machine.turn.2 = .goesOn next)
    (here : machine.program.get? machine.position = some instruction) :
    ∃ effect, machine.step? = some ⟨machine.position, instruction, machine.state, effect⟩ ∧
      ∃ state, execute instruction machine.position machine.program machine.resolver
        machine.state = (.ok effect, state) := by
  obtain ⟨other, effect, state, there, free, executed, -⟩ := goesOn_acts goes
  obtain rfl : other = instruction := Option.some.inj (there.symm.trans here)
  refine ⟨effect, ?_, state, executed⟩
  simp only [step?, here, free, executed, Bool.false_eq_true, if_false]

/-- The machine executes these steps, each in a turn of its own, and becomes another machine. -/
structure Performs (machine : Machine σ) (steps : List Step) (final : Machine σ) : Prop where
  reached : machine.after? steps.length = some final
  executed : machine.history steps.length = steps

namespace Performs

variable {middle final : Machine σ} {steps others : List Step}

theorem nothing (machine : Machine σ) : machine.Performs [] machine :=
  ⟨rfl, rfl⟩

theorem trans (performs : machine.Performs steps middle) (onward : middle.Performs others final) :
    machine.Performs (steps ++ others) final := by
  constructor
  · rw [List.length_append]
    exact after?_trans performs.reached onward.reached
  · rw [List.length_append, history_add, performs.executed, later_of_after? performs.reached,
      onward.executed]

theorem of_turn {step : Step} (taken : machine.step? = some step)
    (goes : machine.turn.2 = .goesOn next) : machine.Performs [step] next := by
  refine ⟨after?_one_of_goesOn goes, ?_⟩
  have one := machine.history_succ 0
  rw [Nat.zero_add] at one
  rw [List.length_singleton, one]
  exact congrArg Option.toList taken

/-- A turn that goes on performs one step, with the instruction at the machine's position. -/
theorem of_goesOn {instruction : Instruction} (goes : machine.turn.2 = .goesOn next)
    (here : machine.program.get? machine.position = some instruction) :
    ∃ effect, machine.Performs [⟨machine.position, instruction, machine.state, effect⟩] next := by
  obtain ⟨effect, taken, -⟩ := step?_of_goesOn goes here
  exact ⟨effect, of_turn taken goes⟩

/-- A machine that comes to stand outside its program notices the end of it. -/
theorem returns (performs : machine.Performs steps final)
    (outside : final.program.get? final.position = none) :
    ∃ events, Run.Returns machine (.ok .endOfProgram) final events := by
  have noticed : final.turn.2 = .returns (.ok .endOfProgram) final := by
    rw [turn_of_outside outside]
  exact returns_iff.2 ⟨_, (EndsAfter.of_returns noticed).prepend performs.reached⟩

end Performs

/-- A machine at the start of plain instructions that can be passed passes them. -/
theorem performs_of_passes (accepting : Sink.Accepting σ) {position : Nat} {code : List Instruction}
    {state final : State} {steps : List Step} (passes : Passes position code state steps final)
    {machine : Machine σ} {before behind : List Instruction}
    (stands : machine.program.instructions = before ++ code ++ behind)
    (unlimited : machine.config.maxSteps = none) (length : before.length = position)
    (here : machine.position = before.length) (same : machine.state = state) :
    machine.Performs steps (machine.advanced final (before.length + code.length)
      (steps.filterMap Step.print?) steps.length) := by
  induction passes generalizing machine before with
  | done =>
    subst same
    rw [List.length_nil, Nat.add_zero, ← here]
    exact .nothing machine
  | @step position instruction code state next final effect steps plain executed onward later ih =>
    subst length same
    have holds : machine.Holds before (.plain instruction plain .done) (code ++ behind) := by
      refine ⟨?_, unlimited⟩
      rw [stands]
      simp [Block.flatten]
    have behindIt : before ++ instruction :: code ++ behind =
        (before ++ [instruction]) ++ code ++ behind := by
      simp
    have goes : machine.turn.2 = .goesOn (machine.advanced next (before.length + 1)
        ([Step.mk before.length instruction machine.state effect].filterMap Step.print?) 1) := by
      cases effect with
      | next => exact turn_next holds here executed
      | print value =>
        have turned := turn_print accepting holds here executed
        rw [(execute_eq_print executed).2] at turned
        rw [(execute_eq_print executed).2]
        exact turned
      | halt => exact absurd rfl onward
      | jump target =>
        rw [isBracket_of_execute_jump executed] at plain
        cases plain
    obtain ⟨other, taken, _, executedToo⟩ := step?_of_goesOn goes (holds.get?_plain here)
    rw [holds.execute_eq here, executed] at executedToo
    cases executedToo
    rw [here] at taken
    have exit : before.length + (instruction :: code).length =
        (before ++ [instruction]).length + code.length := by
      rw [List.length_cons, List.length_append, List.length_singleton]
      omega
    have performs := (Performs.of_turn taken goes).trans
      (ih (stands.trans behindIt) unlimited (by simp) (by simp) rfl)
    rw [advanced_advanced, ← List.filterMap_append, ← exit, Nat.add_comm 1] at performs
    exact performs

end Machine

end Crosswire
