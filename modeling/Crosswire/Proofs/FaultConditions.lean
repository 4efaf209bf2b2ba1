/-
Module: Crosswire.Proofs.FaultConditions
Purpose: When an instruction faults, and what a fault leaves behind. `Faults` lists the conditions:
  arithmetic and a pop that find the top stack empty, a pop that would take away the only stack, and a
  bracket that is due to jump and has no target. An instruction faults under these conditions and no
  others, whatever program and resolver it is executed with, and a fault changes nothing.
Imports: Crosswire.Proofs.StructuredLoops
Main exports: State.popValue?_eq_none_iff, State.popStack?_eq_none_iff, combineOperand_eq_error_iff,
  takeJump_eq_error_iff, Faults, execution_faults_exactly
-/
import Crosswire.Proofs.StructuredLoops

namespace Crosswire

/-! ### Operations that find nothing -/

namespace State

theorem popValue?_eq_none_iff {state : State} : state.popValue? = none ↔ state.area.top = [] := by
  unfold popValue? Stacks.popValue?
  cases state.area.top with
  | nil => simp
  | cons value rest => simp

theorem popStack?_eq_none_iff {state : State} : state.popStack? = none ↔ state.area.depth = 1 := by
  unfold popStack? Stacks.popStack? Stacks.depth
  cases state.area.below with
  | nil => simp
  | cons next rest => simp

end State

section Parts

variable {position : Nat} {program : Program} {resolver : Resolver} {state after : State}
  {fault : Fault} {direction : Direction}

/-- Combining with an operand fails when there is none, and leaves the state alone. -/
theorem combineOperand_eq_error_iff {combine : Value → Value → Value} :
    combineOperand combine position state = (.error fault, after) ↔
      state.area.top = [] ∧ fault = .stackUnderflow position .inner ∧ after = state := by
  rw [← State.popValue?_eq_none_iff, combineOperand]
  cases state.popValue? with
  | none => simp [eq_comm]
  | some popped => simp

/-- A jump fails when the resolver knows no target, and leaves the state alone. -/
theorem takeJump_eq_error_iff :
    takeJump resolver program position direction state = (.error fault, after) ↔
      resolver.resolve program position direction = none ∧
        fault = .jumpOutOfRange position direction ∧ after = state := by
  rw [takeJump]
  cases resolver.resolve program position direction with
  | none => simp [eq_comm]
  | some target => simp

end Parts

/-! ### The conditions -/

/-- An instruction cannot be executed at a position in a state, and this is the fault. -/
inductive Faults (program : Program) (resolver : Resolver) (position : Nat) (state : State) :
    Instruction → Fault → Prop where
  /-- There is nothing to add the accumulator to. -/
  | add (empty : state.area.top = []) :
      Faults program resolver position state .add (.stackUnderflow position .inner)
  /-- There is nothing to combine the accumulator with. -/
  | nand (empty : state.area.top = []) :
      Faults program resolver position state .nand (.stackUnderflow position .inner)
  /-- There is no value to pop. -/
  | popValue (mode : state.mode = .twoD) (empty : state.area.top = []) :
      Faults program resolver position state .pop (.stackUnderflow position .inner)
  /-- There is no stack to pop but the last one. -/
  | popStack (mode : state.mode = .oneD) (single : state.area.depth = 1) :
      Faults program resolver position state .pop (.stackUnderflow position .outer)
  /-- A loop is to be skipped that has no end. -/
  | skip (idle : state.Idle) (alone : resolver.resolve program position .forward = none) :
      Faults program resolver position state .loopStart (.jumpOutOfRange position .forward)
  /-- A loop is to be repeated that has no start. -/
  | again (busy : ¬ state.Idle) (alone : resolver.resolve program position .backward = none) :
      Faults program resolver position state .loopEnd (.jumpOutOfRange position .backward)

section Faults

variable {instruction : Instruction} {position : Nat} {program : Program} {resolver : Resolver}
  {state after : State} {fault : Fault}

theorem Faults.execute_eq (faults : Faults program resolver position state instruction fault) :
    execute instruction position program resolver state = (.error fault, state) := by
  cases faults with
  | add empty => exact combineOperand_eq_error_iff.2 ⟨empty, rfl, rfl⟩
  | nand empty => exact combineOperand_eq_error_iff.2 ⟨empty, rfl, rfl⟩
  | popValue mode empty =>
    simp only [execute, mode, Mode.routing]
    exact combineOperand_eq_error_iff.2 ⟨empty, rfl, rfl⟩
  | popStack mode single =>
    simp only [execute, mode, Mode.routing, State.popStack?_eq_none_iff.2 single]
  | skip idle alone =>
    simp only [execute, State.idle_iff.1 idle, Bool.false_eq_true, if_false]
    exact takeJump_eq_error_iff.2 ⟨alone, rfl, rfl⟩
  | again busy alone =>
    simp only [execute, State.not_idle_iff.1 busy, if_true]
    exact takeJump_eq_error_iff.2 ⟨alone, rfl, rfl⟩

theorem faults_of_execute
    (executed : execute instruction position program resolver state = (.error fault, after)) :
    Faults program resolver position state instruction fault := by
  cases instruction with
  | add =>
    obtain ⟨empty, rfl, -⟩ := combineOperand_eq_error_iff.1 executed
    exact .add empty
  | nand =>
    obtain ⟨empty, rfl, -⟩ := combineOperand_eq_error_iff.1 executed
    exact .nand empty
  | pop =>
    cases mode : state.mode with
    | oneD =>
      simp only [execute, mode, Mode.routing] at executed
      split at executed
      · cases executed
      · next nothing =>
        cases executed
        exact .popStack mode (State.popStack?_eq_none_iff.1 nothing)
    | twoD =>
      simp only [execute, mode, Mode.routing] at executed
      obtain ⟨empty, rfl, -⟩ := combineOperand_eq_error_iff.1 executed
      exact .popValue mode empty
  | loopStart =>
    simp only [execute] at executed
    split at executed
    · cases executed
    · next falsy =>
      obtain ⟨alone, rfl, -⟩ := takeJump_eq_error_iff.1 executed
      exact .skip (State.idle_iff.2 (Bool.not_eq_true _ ▸ falsy)) alone
  | loopEnd =>
    simp only [execute] at executed
    split at executed
    · next truthy =>
      obtain ⟨alone, rfl, -⟩ := takeJump_eq_error_iff.1 executed
      exact .again (State.not_idle_iff.2 truthy) alone
    · cases executed
  | push =>
    simp only [execute] at executed
    split at executed <;> cases executed
  | _ => cases executed

end Faults

/-- Executing an instruction fails under the listed conditions and no others, with the listed fault, and
then leaves accumulator, mode, stacks and styling as they were. -/
theorem execution_faults_exactly (instruction : Instruction) (position : Nat) (program : Program)
    (resolver : Resolver) (state after : State) (fault : Fault) :
    execute instruction position program resolver state = (.error fault, after) ↔
      Faults program resolver position state instruction fault ∧ after = state := by
  constructor
  · intro executed
    have faults := faults_of_execute executed
    rw [faults.execute_eq] at executed
    cases executed
    exact ⟨faults, rfl⟩
  · rintro ⟨faults, rfl⟩
    exact faults.execute_eq

end Crosswire
