/-
Module: Crosswire.Proofs.History
Purpose: The whole life of a machine, however often it is called. A call that returns leaves a machine
  that the next call starts from, so all calls together are one sequence of turns: `later` is the
  machine after some of them, and `history` lists the instructions executed in them. A turn that
  executes nothing leaves the machine as it is; one that executes an instruction is described once, by
  `Takes`, and one that returns by `Stops`; invariants are read off these descriptions.
Imports: Crosswire.Proofs.Turns, Mathlib (iterating a function)
Main exports: Step, Machine.step?, Machine.Takes, Machine.successor, Machine.Takes.styled,
  Machine.Stops, Machine.later, Machine.history, Machine.exists_turn_of_history_eq,
  Machine.steps_later, Machine.Visits, Machine.Visits.exists_later, Machine.Calls.exists_later
-/
import Mathlib.Logic.Function.Iterate
import Crosswire.Proofs.Turns

namespace Crosswire

/-- An instruction that fails leaves the state as it was. -/
theorem state_of_execute_error {instruction : Instruction} {position : Nat} {program : Program}
    {resolver : Resolver} {state next : State} {fault : Fault}
    (executed : execute instruction position program resolver state = (.error fault, next)) :
    next = state := by
  cases instruction <;> grind [execute, combineOperand, takeJump]

/-- Styled output is switched on by the discouraged instruction and by nothing else. -/
theorem styled_of_execute {instruction : Instruction} {position : Nat} {program : Program}
    {resolver : Resolver} {state next : State} {effect : Effect}
    (executed : execute instruction position program resolver state = (.ok effect, next)) :
    next.styled = (state.styled || instruction = .discourage) := by
  cases instruction <;>
    grind [execute, combineOperand, takeJump, State.popValue?, State.popStack?, State.pushValue,
      State.pushStack, State.rotate]

/-- What is collected over a number of turns, and over one turn more. -/
theorem filterMap_range_succ {α : Type} (found : Nat → Option α) (turns : Nat) :
    (List.range (turns + 1)).filterMap found =
      (List.range turns).filterMap found ++ (found turns).toList := by
  rw [List.range_succ, List.filterMap_append, List.filterMap_cons]
  cases found turns <;> rfl

/-- An executed instruction: where it stood, the state that it met, and what it asked for. -/
structure Step where
  position : Nat
  instruction : Instruction
  /-- The state before the instruction. -/
  state : State
  effect : Effect
deriving DecidableEq, Repr

/-- Where a machine can be that has executed an instruction at `position`. A print that the sink does
not take leaves it there. -/
def Effect.LeadsTo (effect : Effect) (position after : Nat) : Prop :=
  match effect with
  | .next => after = position + 1
  | .jump target => after = target
  | .print _ => after = position + 1 ∨ after = position
  | .halt => after = position

namespace Machine

variable {σ : Type}

/-- The instruction that the machine's next turn executes, if it executes one. -/
def step? (machine : Machine σ) : Option Step :=
  match machine.program.get? machine.position with
  | none => none
  | some instruction =>
    if machine.limitReached then
      none
    else
      match execute instruction machine.position machine.program machine.resolver machine.state with
      | (.error _, _) => none
      | (.ok effect, _) => some ⟨machine.position, instruction, machine.state, effect⟩

variable [Sink σ]

/-- The machine that a turn leaves behind. If the turn returns, the next call starts from it. -/
def successor (machine : Machine σ) : Machine σ :=
  machine.turn.2.machine

/-- What is known of a turn that executes an instruction. -/
structure Takes (machine : Machine σ) (step : Step) : Prop where
  position : step.position = machine.position
  state : step.state = machine.state
  here : machine.program.get? machine.position = some step.instruction
  free : machine.limitReached = false
  executed : execute step.instruction machine.position machine.program machine.resolver
    machine.state = (.ok step.effect, machine.successor.state)
  counted : machine.successor.steps = machine.steps + 1
  leads : step.effect.LeadsTo machine.position machine.successor.position

theorem leadsTo_apply (machine : Machine σ) (effect : Effect) :
    effect.LeadsTo machine.position (machine.apply effect).2.machine.position := by
  cases effect with
  | next => rfl
  | jump target => rfl
  | halt => rfl
  | print value =>
    simp only [apply, print]
    split
    · exact .inl rfl
    · exact .inr rfl

/-- A turn executes an instruction, or it leaves the machine as it is. -/
theorem takes_or_rests (machine : Machine σ) :
    (∃ step, machine.step? = some step ∧ machine.Takes step) ∨
      machine.step? = none ∧ machine.successor = machine := by
  cases machine.moment with
  | outside outside =>
    refine .inr ⟨?_, ?_⟩
    · simp only [step?, outside]
    · rw [successor, turn_of_outside outside]
      rfl
  | limited here reached =>
    refine .inr ⟨?_, ?_⟩
    · simp only [step?, here, reached, if_true]
    · rw [successor, turn_of_limited here reached]
      rfl
  | faults here free executed =>
    have same := state_of_execute_error executed
    subst same
    refine .inr ⟨?_, ?_⟩
    · simp only [step?, here, free, executed, Bool.false_eq_true, if_false]
    · rw [successor, turn_of_faults here free executed]
      rfl
  | @acts instruction effect state here free executed =>
    have turned := turn_of_acts here free executed
    obtain ⟨-, -, stateAfter, stepsAfter⟩ :=
      apply_frame { machine with state, steps := machine.steps + 1 } effect
    refine .inl ⟨⟨machine.position, instruction, machine.state, effect⟩, ?_, ?_⟩
    · simp only [step?, here, free, executed, Bool.false_eq_true, if_false]
    · constructor
      · rfl
      · rfl
      · exact here
      · exact free
      · rw [successor, turned, stateAfter]
        exact executed
      · rw [successor, turned, stepsAfter]
      · rw [successor, turned]
        exact leadsTo_apply { machine with state, steps := machine.steps + 1 } effect

theorem takes_of_step? {machine : Machine σ} {step : Step} (taken : machine.step? = some step) :
    machine.Takes step := by
  rcases machine.takes_or_rests with ⟨other, same, takes⟩ | ⟨idle, -⟩
  · rw [taken] at same
    cases same
    exact takes
  · rw [idle] at taken
    cases taken

theorem Takes.styled {machine : Machine σ} {step : Step} (takes : machine.Takes step) :
    machine.successor.state.styled = (machine.state.styled || step.instruction = .discourage) :=
  styled_of_execute takes.executed

/-- How a turn can return. Only a stop and a print that the sink did not take have executed an
instruction; in all other cases the machine is left as it was. -/
inductive Stops (machine : Machine σ) : RunResult → Machine σ → Prop where
  | outside (outside : machine.program.get? machine.position = none) :
      Stops machine (.ok .endOfProgram) machine
  | limited (reached : machine.limitReached = true) : Stops machine (.ok .stepLimit) machine
  | faults {instruction : Instruction} {fault : Fault}
      (here : machine.program.get? machine.position = some instruction)
      (executed : execute instruction machine.position machine.program machine.resolver
        machine.state = (.error fault, machine.state)) :
      Stops machine (.error (.faulted fault)) machine
  | halts {instruction : Instruction} {state : State}
      (here : machine.program.get? machine.position = some instruction)
      (executed : execute instruction machine.position machine.program machine.resolver
        machine.state = (.ok .halt, state)) :
      Stops machine (.ok (.ended machine.position))
        { machine with state, steps := machine.steps + 1 }
  | refused {instruction : Instruction} {value : Value} {state : State} {failure : OutputFailure}
      {final : Machine σ} (here : machine.program.get? machine.position = some instruction)
      (executed : execute instruction machine.position machine.program machine.resolver
        machine.state = (.ok (.print value), state))
      (printed : print { machine with state, steps := machine.steps + 1 } value =
        .returns (.error (.output failure)) final) :
      Stops machine (.error (.output failure)) final

theorem stops_of_returns {machine final : Machine σ} {result : RunResult}
    (returns : machine.turn.2 = .returns result final) : machine.Stops result final := by
  cases machine.moment with
  | outside outside =>
    rw [turn_of_outside outside] at returns
    cases returns
    exact .outside outside
  | limited here reached =>
    rw [turn_of_limited here reached] at returns
    cases returns
    exact .limited reached
  | faults here free executed =>
    rw [turn_of_faults here free executed] at returns
    cases returns
    obtain rfl := state_of_execute_error executed
    exact .faults here executed
  | @acts _ effect state here free executed =>
    rw [turn_of_acts here free executed] at returns
    cases effect with
    | next => cases returns
    | jump target => cases returns
    | halt =>
      cases returns
      exact .halts here executed
    | print value =>
      have printed : print { machine with state, steps := machine.steps + 1 } value =
          .returns result final := returns
      have failed := printed
      simp only [print] at failed
      split at failed
      · cases failed
      · cases failed
        exact .refused here executed printed

/-! ### All turns of all calls -/

/-- The machine after a number of turns, called again whenever a call has returned. -/
def later (machine : Machine σ) (turns : Nat) : Machine σ :=
  successor^[turns] machine

/-- The instructions executed in a number of turns, the first one first. -/
def history (machine : Machine σ) (turns : Nat) : List Step :=
  (List.range turns).filterMap fun turn => (machine.later turn).step?

theorem later_succ (machine : Machine σ) (turns : Nat) :
    machine.later (turns + 1) = (machine.later turns).successor :=
  Function.iterate_succ_apply' successor turns machine

theorem later_succ_first (machine : Machine σ) (turns : Nat) :
    machine.later (turns + 1) = machine.successor.later turns := rfl

theorem later_add (machine : Machine σ) (first second : Nat) :
    machine.later (first + second) = (machine.later first).later second := by
  rw [Nat.add_comm]
  exact Function.iterate_add_apply successor second first machine

theorem history_succ (machine : Machine σ) (turns : Nat) :
    machine.history (turns + 1) = machine.history turns ++ (machine.later turns).step?.toList :=
  filterMap_range_succ (fun turn => (machine.later turn).step?) turns

/-- Every entry of a history was made in one of the turns, behind the entries before it. -/
theorem exists_turn_of_history_eq {machine : Machine σ} {step : Step} {turns : Nat}
    {before after : List Step} (split : machine.history turns = before ++ step :: after) :
    ∃ turn < turns, machine.history turn = before ∧ (machine.later turn).Takes step := by
  induction turns generalizing after with
  | zero => simp [history] at split
  | succ turns ih =>
    have earlier {rest : List Step} (found : machine.history turns = before ++ step :: rest) :
        ∃ turn < turns + 1, machine.history turn = before ∧ (machine.later turn).Takes step := by
      obtain ⟨turn, inside, same, takes⟩ := ih found
      exact ⟨turn, Nat.lt_succ_of_lt inside, same, takes⟩
    rw [history_succ] at split
    rcases (machine.later turns).takes_or_rests with ⟨last, taken, takes⟩ | ⟨idle, -⟩
    · rw [taken, Option.toList_some] at split
      -- The entry is the one of the last turn, or stands before it.
      rcases List.eq_nil_or_concat after with rfl | ⟨rest, other, rfl⟩
      · obtain ⟨same, entry⟩ := List.append_inj' split rfl
        cases entry
        exact ⟨turns, Nat.lt_succ_self turns, same, takes⟩
      · rw [List.concat_eq_append, ← List.cons_append, ← List.append_assoc] at split
        exact earlier (List.append_inj' split rfl).1
    · rw [idle, Option.toList_none, List.append_nil] at split
      exact earlier split

/-- A property of machines and histories that executing an instruction preserves holds throughout. -/
theorem later_induction {machine : Machine σ} {motive : List Step → Machine σ → Prop}
    (start : motive [] machine)
    (executes : ∀ (steps : List Step) (here : Machine σ) (step : Step),
      motive steps here → here.Takes step → motive (steps ++ [step]) here.successor)
    (turns : Nat) : motive (machine.history turns) (machine.later turns) := by
  induction turns with
  | zero => exact start
  | succ turns ih =>
    rw [history_succ, later_succ]
    rcases (machine.later turns).takes_or_rests with ⟨step, taken, takes⟩ | ⟨idle, same⟩
    · rw [taken]
      exact executes _ _ step ih takes
    · rw [idle, same, Option.toList_none, List.append_nil]
      exact ih

/-- Neither program nor configuration ever changes. -/
theorem later_frame (machine : Machine σ) (turns : Nat) :
    (machine.later turns).program = machine.program ∧
      (machine.later turns).config = machine.config := by
  induction turns with
  | zero => exact ⟨rfl, rfl⟩
  | succ turns ih =>
    obtain ⟨program, config⟩ := (machine.later turns).turn_frame
    rw [later_succ]
    exact ⟨program.trans ih.1, config.trans ih.2⟩

/-- The step counter counts the executed instructions. -/
theorem steps_later (machine : Machine σ) (turns : Nat) :
    (machine.later turns).steps = machine.steps + (machine.history turns).length := by
  apply later_induction (motive := fun steps here => here.steps = machine.steps + steps.length)
  · rfl
  · intro steps here step counted takes
    rw [takes.counted, counted, List.length_append, List.length_singleton, Nat.add_assoc]

/-! ### Run calls -/

variable {machine next last final : Machine σ} {result : RunResult}

theorem successor_of_goesOn (goes : machine.turn.2 = .goesOn next) : machine.successor = next := by
  rw [successor, goes]
  rfl

theorem successor_of_returns (returns : machine.turn.2 = .returns result final) :
    machine.successor = final := by
  rw [successor, returns]
  rfl

theorem later_of_after? {turns : Nat} (reached : machine.after? turns = some last) :
    machine.later turns = last := by
  induction turns generalizing machine with
  | zero =>
    cases reached
    rfl
  | succ turns ih =>
    cases turned : machine.turn.2 with
    | returns result final =>
      rw [after?_succ_of_returns turned] at reached
      cases reached
    | goesOn next =>
      rw [after?_succ_of_goesOn turned] at reached
      rw [later_succ_first, successor_of_goesOn turned]
      exact ih reached

/-- The machine that a call leaves is the one after its last turn. -/
theorem EndsAfter.later_eq {turns : Nat} (ends : machine.EndsAfter turns result final) :
    machine.later (turns + 1) = final := by
  obtain ⟨last, reached, returns⟩ := ends
  rw [later_succ, later_of_after? reached, successor_of_returns returns]

/-- A call that returns has come to a turn that returns. -/
theorem exists_later_of_returns {events : Array Event}
    (returns : Run.Returns machine result final events) :
    ∃ turns, (machine.later turns).turn.2 = .returns result final ∧
      machine.later (turns + 1) = final := by
  obtain ⟨turns, ends⟩ := returns_iff.1 ⟨events, returns⟩
  refine ⟨turns, ?_, ends.later_eq⟩
  obtain ⟨last, reached, returned⟩ := ends
  rw [later_of_after? reached]
  exact returned

/-- The machine, called any number of times, comes by another machine: a call is under way and has
taken some turns, or has returned. -/
inductive Visits : Machine σ → Machine σ → Prop where
  | during (machine : Machine σ) (turns : Nat) :
      Visits machine ((Run.start machine).advance turns).machine
  | again {machine final here : Machine σ} {result : RunResult} {events : Array Event}
      (returns : Run.Returns machine result final events) (onward : Visits final here) :
      Visits machine here

theorem exists_later_advance (machine : Machine σ) (earlier : Array Event) (turns : Nat) :
    ∃ fewer, ((Run.mk machine earlier none).advance turns).machine = machine.later fewer := by
  induction turns generalizing machine earlier with
  | zero => exact ⟨0, rfl⟩
  | succ turns ih =>
    rw [Run.advance_succ]
    cases turned : machine.turn.2 with
    | returns result final =>
      rw [step_of_returns turned, Run.advance_of_result rfl]
      exact ⟨1, (successor_of_returns turned).symm⟩
    | goesOn next =>
      rw [step_of_goesOn turned]
      obtain ⟨fewer, reached⟩ := ih next (earlier ++ machine.turn.1)
      refine ⟨fewer + 1, ?_⟩
      rw [reached, later_succ_first, successor_of_goesOn turned]

/-- Whatever machine the calls come by, it is a later machine. -/
theorem Visits.exists_later {here : Machine σ} (visits : machine.Visits here) :
    ∃ turns, machine.later turns = here := by
  induction visits with
  | during machine turns =>
    obtain ⟨fewer, reached⟩ := exists_later_advance machine #[machine.startedEvent] turns
    exact ⟨fewer, reached.symm⟩
  | again returns onward ih =>
    obtain ⟨turns, -, reached⟩ := exists_later_of_returns returns
    obtain ⟨more, there⟩ := ih
    refine ⟨turns + 1 + more, ?_⟩
    rw [later_add, reached, there]

/-- Every report of successive calls is of a turn that returned. -/
theorem Calls.exists_later {reports : List (Report σ)} (calls : machine.Calls reports)
    {report : Report σ} (seen : report ∈ reports) :
    ∃ turns result final, (machine.later turns).turn.2 = .returns result final ∧
      report = final.report result := by
  obtain ⟨answers, given, rfl⟩ := calls
  induction given with
  | uncalled machine => cases seen
  | called returns again ih =>
    obtain ⟨turns, ends, reached⟩ := exists_later_of_returns returns
    rw [List.map_cons] at seen
    rcases List.mem_cons.1 seen with rfl | seenLater
    · exact ⟨turns, _, _, ends, rfl⟩
    · obtain ⟨more, other, another, endsLater, same⟩ := ih seenLater
      refine ⟨turns + 1 + more, other, another, ?_, same⟩
      rw [later_add, reached]
      exact endsLater

end Machine

end Crosswire
