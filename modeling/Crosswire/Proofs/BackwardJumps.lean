/-
Module: Crosswire.Proofs.BackwardJumps
Purpose: A long run must jump back. An executed instruction moves the machine ahead, unless it is a loop
  end that jumps back to its start or the last one of the call; so between two such jumps a call executes
  every position at most once, and a call that has jumped back `b` times has executed at most `b + 1`
  times as many instructions as the program has. Without a jump back it returns by itself.
Imports: Crosswire.Proofs.ReachableStates, Crosswire.Proofs.StraightLine
Main exports: lt_of_scanForward, lt_of_scanBackward, Step.jumpsBack, Machine.Takes.jumpsBack_iff,
  Machine.Takes.ahead_or_back, Run.executed, Run.executed_induction, Machine.length_executed_le,
  Machine.long_runs_jump_back
-/
import Crosswire.Proofs.ReachableStates
import Crosswire.Proofs.StraightLine

namespace Crosswire

/-! ### Which way a jump goes -/

section Scans

variable {instructions : List Instruction} {position target : Nat}

theorem lt_of_scanForward (found : scanForward instructions position = some target) :
    position < target := by
  obtain ⟨offset, -, rfl⟩ := Option.map_eq_some_iff.1 found
  omega

theorem lt_of_scanBackward (found : scanBackward instructions position = some target) :
    target < position := by
  obtain ⟨offset, there, rfl⟩ := Option.map_eq_some_iff.1 found
  have bound := firstUnpaired_lt_length there
  have short := List.length_take_le position instructions
  rw [List.length_reverse] at bound
  omega

end Scans

/-- Whether a step jumped to a position before its own. -/
def Step.jumpsBack (step : Step) : Bool :=
  match step.effect with
  | .jump target => target < step.position
  | _ => false

theorem Step.jumpsBack_eq_true_iff {step : Step} :
    step.jumpsBack = true ↔ ∃ target, step.effect = .jump target ∧ target < step.position := by
  unfold jumpsBack
  cases step.effect <;> simp

namespace Machine

variable {σ : Type} [Sink σ] {machine next : Machine σ} {step : Step}

/-- A bracket jumps the way of its direction. -/
theorem Takes.target_of_jump (takes : machine.Takes step) {target : Nat}
    (jumps : step.effect = .jump target) :
    step.instruction = .loopStart ∧ machine.position < target ∨
      step.instruction = .loopEnd ∧ step.state.accumulator.isTruthy = true ∧
        target < machine.position := by
  have executed := takes.executed
  have here := takes.here
  rw [jumps] at executed
  obtain ⟨direction, bracket, truth, resolved, -⟩ := execute_eq_jump executed
  rw [bracket] at here
  rw [machine.resolver_eq, Resolver.resolve_bracket here] at resolved
  rw [takes.state]
  cases direction with
  | forward => exact .inl ⟨bracket, lt_of_scanForward resolved⟩
  | backward => exact .inr ⟨bracket, truth, lt_of_scanBackward resolved⟩

/-- The steps that jump back are the loop ends met with a truthy accumulator. -/
theorem Takes.jumpsBack_iff (takes : machine.Takes step) :
    step.jumpsBack = true ↔
      step.instruction = .loopEnd ∧ step.state.accumulator.isTruthy = true := by
  rw [Step.jumpsBack_eq_true_iff, takes.position]
  constructor
  · rintro ⟨target, jumps, back⟩
    rcases takes.target_of_jump jumps with ⟨-, ahead⟩ | ⟨ends, truth, -⟩
    · exact absurd ahead (Nat.lt_asymm back)
    · exact ⟨ends, truth⟩
  · rintro ⟨ends, truth⟩
    have executed := takes.executed
    have due : machine.state.accumulator.isTruthy = Direction.backward.jumpsOnTruthy := by
      rw [← takes.state]
      exact truth
    rw [ends] at executed
    change execute Direction.backward.bracket _ _ _ _ = _ at executed
    rw [execute_bracket, if_pos due, takeJump] at executed
    split at executed
    · next target _ =>
      injection executed with effect
      injection effect with jumps
      refine ⟨target, jumps.symm, ?_⟩
      rcases takes.target_of_jump jumps.symm with ⟨starts, -⟩ | ⟨-, -, back⟩
      · rw [ends] at starts
        cases starts
      · exact back
    · cases executed

/-- An instruction after which the call goes on moves the machine ahead, or jumps back. -/
theorem Takes.ahead_or_back (takes : machine.Takes step) (goes : machine.turn.2 = .goesOn next) :
    machine.position < next.position ∨ step.jumpsBack = true := by
  rw [turn_of_acts takes.here takes.free takes.executed] at goes
  cases effect : step.effect with
  | next =>
    rw [effect] at goes
    cases goes
    exact .inl (Nat.lt_succ_self _)
  | jump target =>
    rw [effect] at goes
    cases goes
    rcases takes.target_of_jump effect with ⟨-, ahead⟩ | ⟨ends, truth, -⟩
    · exact .inl ahead
    · exact .inr (takes.jumpsBack_iff.2 ⟨ends, truth⟩)
  | print value =>
    rw [effect] at goes
    simp only [apply, print] at goes
    split at goes
    · cases goes
      exact .inl (Nat.lt_succ_self _)
    · cases goes
  | halt =>
    rw [effect] at goes
    cases goes

end Machine

/-! ### The instructions of a call -/

namespace Run

variable {σ : Type} [Sink σ]

/-- The instructions that a run call executes in its next turns, the first one first. -/
def executed (run : Run σ) : Nat → List Step
  | 0 => []
  | turns + 1 =>
    match run.result with
    | some _ => []
    | none => run.machine.step?.toList ++ run.step.executed turns

theorem executed_of_result {run : Run σ} {result : RunResult} (returned : run.result = some result)
    (turns : Nat) : run.executed turns = [] := by
  cases turns with
  | zero => rfl
  | succ turns => simp only [executed, returned]

/-- Induction along a call. A property of calls holds however far they have come if it holds before the
first turn and of calls that their first turn ends, and is kept when an instruction comes in front of a
call. A turn that ends a call has executed nothing and left the machine as it was, or has executed the
last instruction. -/
theorem executed_induction {motive : Machine σ → Nat → List Step → Run σ → Prop}
    (starts : ∀ machine events, motive machine 0 [] ⟨machine, events, none⟩)
    (rests : ∀ machine result turns events, machine.turn.2 = .returns result machine →
      motive machine (turns + 1) [] ⟨machine, events, some result⟩)
    (lasts : ∀ machine result step turns events,
      machine.turn.2 = .returns result machine.successor → machine.Takes step →
      motive machine (turns + 1) [step] ⟨machine.successor, events, some result⟩)
    (goesOn : ∀ machine next step turns steps run, machine.turn.2 = .goesOn next →
      machine.Takes step → motive next turns steps run →
      motive machine (turns + 1) (step :: steps) run)
    (machine : Machine σ) (turns : Nat) :
    motive machine turns ((start machine).executed turns) ((start machine).advance turns) := by
  -- What was logged before does not matter, and grows along the induction.
  suffices logged : ∀ earlier, motive machine turns ((Run.mk machine earlier none).executed turns)
      ((Run.mk machine earlier none).advance turns) from logged #[machine.startedEvent]
  intro earlier
  induction turns generalizing machine earlier with
  | zero => exact starts machine earlier
  | succ turns ih =>
    rw [advance_succ, executed]
    cases turned : machine.turn.2 with
    | goesOn next =>
      rw [Machine.step_of_goesOn turned]
      obtain ⟨instruction, effect, state, here, -⟩ := Machine.goesOn_acts turned
      obtain ⟨effect, taken, -⟩ := Machine.step?_of_goesOn turned here
      have later := ih next (earlier ++ machine.turn.1)
      rw [taken]
      exact goesOn machine next _ turns _ _ turned (Machine.takes_of_step? taken) later
    | returns result final =>
      obtain rfl := Machine.successor_of_returns turned
      rw [Machine.step_of_returns turned, advance_of_result rfl, executed_of_result rfl,
        List.append_nil]
      rcases machine.takes_or_rests with ⟨step, taken, takes⟩ | ⟨idle, same⟩
      · rw [taken]
        exact lasts machine result step turns _ turned takes
      · rw [idle, same]
        rw [same] at turned
        exact rests machine result turns _ turned

end Run

namespace Machine

variable {σ : Type} [Sink σ]

section Executed

variable (machine : Machine σ) (turns : Nat)

/-- The step counter counts the instructions of the call. -/
theorem steps_advance :
    ((Run.start machine).advance turns).machine.steps =
      machine.steps + ((Run.start machine).executed turns).length := by
  apply Run.executed_induction
    (motive := fun machine _ steps run => run.machine.steps = machine.steps + steps.length)
  · intro machine events
    rfl
  · intro machine result turns events _
    rfl
  · intro machine result step turns events _ takes
    exact takes.counted
  · intro machine next step turns steps run goes _ counted
    rw [counted, (goesOn_frame goes).2.2, List.length_cons]
    omega

/-- A call that has not returned has executed an instruction in every turn. -/
theorem length_executed_of_result_eq_none
    (underway : ((Run.start machine).advance turns).result = none) :
    ((Run.start machine).executed turns).length = turns := by
  revert underway
  apply Run.executed_induction
    (motive := fun _ turns steps run => run.result = none → steps.length = turns)
  · intro machine events _
    rfl
  · intro machine result turns events _ underway
    cases underway
  · intro machine result step turns events _ _ underway
    cases underway
  · intro machine next step turns steps run _ _ counted underway
    rw [List.length_cons, counted underway]

/-- Every instruction of a call was executed by a machine with the same program. -/
theorem exists_takes_of_mem_executed :
    ∀ step ∈ (Run.start machine).executed turns,
      ∃ here : Machine σ, here.program = machine.program ∧ here.Takes step := by
  apply Run.executed_induction (motive := fun machine _ steps _ => ∀ step ∈ steps,
    ∃ here : Machine σ, here.program = machine.program ∧ here.Takes step)
  · intro machine events step member
    cases member
  · intro machine result turns events _ step member
    cases member
  · intro machine result last turns events _ takes step member
    obtain rfl := List.mem_singleton.1 member
    exact ⟨machine, rfl, takes⟩
  · intro machine next first turns steps run goes takes later step member
    rcases List.mem_cons.1 member with rfl | among
    · exact ⟨machine, rfl, takes⟩
    · obtain ⟨here, same, takesIt⟩ := later step among
      exact ⟨here, same.trans (goesOn_frame goes).1, takesIt⟩

/-- Where the machine stands and what is executed from there on fit into the program once, and once more
for every jump back. -/
theorem length_executed_le (inside : machine.position ≤ machine.program.length) :
    machine.position + ((Run.start machine).executed turns).length ≤
      (((Run.start machine).executed turns).countP Step.jumpsBack + 1) *
        machine.program.length := by
  revert inside
  apply Run.executed_induction (motive := fun machine _ steps _ =>
    machine.position ≤ machine.program.length →
      machine.position + steps.length ≤
        (steps.countP Step.jumpsBack + 1) * machine.program.length)
  · intro machine events inside
    simpa using inside
  · intro machine result turns events _ inside
    simpa using inside
  · intro machine result step turns events _ takes _
    have room : machine.program.length ≤
        ([step].countP Step.jumpsBack + 1) * machine.program.length :=
      Nat.le_mul_of_pos_left _ (Nat.succ_pos _)
    exact Nat.le_trans takes.inside room
  · intro machine next step turns steps run goes takes later _
    have within := takes.inside
    have program := (goesOn_frame goes).1
    have bound := later (by
      rw [← successor_of_goesOn goes, successor, machine.turn_frame.1]
      exact takes.position_le)
    rw [program] at bound
    rw [List.length_cons]
    rcases takes.ahead_or_back goes with ahead | back
    · -- The positions between the two were passed over or executed just now.
      have fewer : steps.countP Step.jumpsBack ≤ (step :: steps).countP Step.jumpsBack :=
        (List.sublist_cons_self step steps).countP_le
      have more := Nat.mul_le_mul_right machine.program.length (Nat.add_le_add_right fewer 1)
      omega
    · rw [List.countP_cons_of_pos back, Nat.succ_mul]
      omega

end Executed

/-- How a call can return whose sink takes every print: its program comes to rest, at the step limit only
if there is one, or faults. -/
theorem halts_or_faults (accepting : Sink.Accepting σ) {machine final : Machine σ} {result : RunResult}
    {events : Array Event} (returns : Run.Returns machine result final events) :
    (∃ halt, result = .ok halt ∧ (machine.config.maxSteps = none → halt ≠ .stepLimit)) ∨
      ∃ fault, result = .error (.faulted fault) := by
  obtain ⟨turns, last, reached, ends⟩ := returns_iff.1 ⟨events, returns⟩
  have unrefused := result_ne_output accepting ends
  have config := (after?_frame reached).2.1
  cases stops_of_returns ends with
  | outside => exact .inl ⟨_, rfl, fun _ => nofun⟩
  | halts => exact .inl ⟨_, rfl, fun _ => nofun⟩
  | faults => exact .inr ⟨_, rfl⟩
  | refused => exact absurd rfl (unrefused _)
  | limited limited =>
    refine .inl ⟨_, rfl, ?_⟩
    intro unlimited
    simp [limitReached, config, unlimited] at limited

/-- A call that does not jump back in one turn more than the program is long returns in these turns. -/
theorem exists_returns_of_never_back (machine : Machine σ)
    (inside : machine.position ≤ machine.program.length)
    (ahead : ∀ step ∈ (Run.start machine).executed (machine.program.length + 1),
      step.jumpsBack = false) :
    ∃ result final events, Run.Returns machine result final events ∧
      final.steps ≤ machine.steps + machine.program.length := by
  have never : ((Run.start machine).executed (machine.program.length + 1)).countP
      Step.jumpsBack = 0 := by
    rw [List.countP_eq_zero]
    intro step member back
    rw [ahead step member] at back
    cases back
  have short := machine.length_executed_le (machine.program.length + 1) inside
  have counted := machine.steps_advance (machine.program.length + 1)
  have whole := machine.length_executed_of_result_eq_none (machine.program.length + 1)
  rw [never, Nat.zero_add, Nat.one_mul] at short
  rcases reached : (Run.start machine).advance (machine.program.length + 1) with
    ⟨final, events, _ | result⟩
  · rw [reached] at whole
    have every := whole rfl
    omega
  · refine ⟨result, final, events, ⟨_, reached⟩, ?_⟩
    rw [reached] at counted
    calc final.steps = _ := counted
      _ ≤ machine.steps + machine.program.length := by omega

/-- A call that has jumped back some times has executed at most as many instructions as the program has,
and as many again for every jump back. A call that does not jump back comes to rest or faults within as
many steps as the program is long, with and without a step limit; so does every call of a program without
brackets, and every one that meets no loop end with a truthy accumulator. That many turns and one more
are enough to see it. -/
theorem long_runs_jump_back (accepting : Sink.Accepting σ) (program : Program) (sink : σ)
    (config : Config) (words : Words) :
    let machine := create program sink config words
    let run := Run.start machine
    (∀ turns,
      (run.advance turns).machine.steps = (run.executed turns).length ∧
      ((run.advance turns).result = none → (run.executed turns).length = turns) ∧
      (run.executed turns).length ≤
        ((run.executed turns).countP Step.jumpsBack + 1) * program.length) ∧
    (∀ turns, ∀ step ∈ run.executed turns, step.jumpsBack = true ↔
      step.instruction = .loopEnd ∧ step.state.accumulator.isTruthy = true) ∧
    ((∀ step ∈ run.executed (program.length + 1), step.jumpsBack = false) ∨
        (∀ step ∈ run.executed (program.length + 1), step.instruction = .loopEnd →
          step.state.accumulator.isTruthy = false) ∨
        (∀ instruction ∈ program.instructions, instruction.isBracket = false) →
      ∃ result final events, Run.Returns machine result final events ∧
        final.steps ≤ program.length ∧
        ((∃ halt, result = .ok halt ∧ (config.maxSteps = none → halt ≠ .stepLimit)) ∨
          ∃ fault, result = .error (.faulted fault))) := by
  intro machine run
  have jumps (turns : Nat) (step : Step) (member : step ∈ run.executed turns) :
      step.jumpsBack = true ↔
        step.instruction = .loopEnd ∧ step.state.accumulator.isTruthy = true := by
    obtain ⟨here, -, takes⟩ := machine.exists_takes_of_mem_executed turns step member
    exact takes.jumpsBack_iff
  refine ⟨?_, jumps, ?_⟩
  · intro turns
    have counted := machine.steps_advance turns
    have fits := machine.length_executed_le turns (Nat.zero_le _)
    refine ⟨counted.trans (Nat.zero_add _), machine.length_executed_of_result_eq_none turns, ?_⟩
    exact (Nat.zero_add _).symm.trans_le fits
  · intro reasons
    have ahead (step : Step) (member : step ∈ run.executed (program.length + 1)) :
        step.jumpsBack = false := by
      rw [Bool.eq_false_iff, Ne, jumps _ step member]
      rintro ⟨ends, truth⟩
      rcases reasons with never | falsy | plain
      · have back := (jumps _ step member).2 ⟨ends, truth⟩
        rw [never step member] at back
        cases back
      · rw [falsy step member ends] at truth
        cases truth
      · obtain ⟨here, same, takes⟩ := machine.exists_takes_of_mem_executed _ step member
        have stands := takes.here
        rw [same, ends] at stands
        exact absurd (plain _ (List.mem_of_getElem? stands)) nofun
    obtain ⟨result, final, events, returns, short⟩ :=
      machine.exists_returns_of_never_back (Nat.zero_le _) ahead
    exact ⟨result, final, events, returns, short.trans_eq (Nat.zero_add _),
      halts_or_faults accepting returns⟩

/-- The program `-(0)!` passes its loop once and does not jump back: it comes to rest after its five
instructions. -/
theorem long_runs_jump_back_onePass :
    let machine :=
      create ⟨[.decrement, .loopStart, .zero, .loopEnd, .print], rfl⟩ Captured.empty {} (.cyclic [])
    ((Run.start machine).executed 6).length = 5 ∧
      ∃ result final events, Run.Returns machine result final events ∧ final.steps ≤ 5 := by
  intro machine
  have ahead : ∀ step ∈ (Run.start machine).executed 6, step.jumpsBack = false := by decide +kernel
  have every : ((Run.start machine).executed 6).length = 5 := by decide +kernel
  obtain ⟨-, -, returns⟩ := long_runs_jump_back Captured.accepting
    ⟨[.decrement, .loopStart, .zero, .loopEnd, .print], rfl⟩ Captured.empty {} (.cyclic [])
  obtain ⟨result, final, events, returned, short, -⟩ := returns (.inl ahead)
  exact ⟨every, result, final, events, returned, short⟩

end Machine

end Crosswire
