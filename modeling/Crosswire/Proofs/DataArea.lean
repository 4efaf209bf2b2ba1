/-
Module: Crosswire.Proofs.DataArea
Purpose: What instructions ask of the data area. An instruction makes at most one request, and the data
  area afterwards is what the request leaves, whether the instruction fails or not. All requests that a
  machine ever makes can also be carried out on a bare sequence of stacks, which nothing keeps from
  being empty and whose top stack cannot be looked at then: starting from one empty stack, no request
  meets an empty sequence, and the sequence is at every point the list of the machine's stacks.
Imports: Crosswire.Proofs.History
Main exports: Instruction.request?, area_execute, Machine.requests, BareStacks.perform?,
  BareStacks.perform?_toList, BareStacks.replay?, Machine.replay?_requests
-/
import Crosswire.Proofs.History

namespace Crosswire

/-! ### Requests -/

/-- What an instruction asks of the data area of a state, if it asks for anything. -/
def Instruction.request? (instruction : Instruction) (state : State) : Option Operation :=
  match instruction with
  | .add | .nand => some .popValue
  | .rotateRight => some (.rotate state.mode.routing.rotate .right)
  | .rotateLeft => some (.rotate state.mode.routing.rotate .left)
  | .push =>
    match state.mode.routing.pushPop with
    | .inner => some (.pushValue state.accumulator)
    | .outer => some .pushStack
  | .pop =>
    match state.mode.routing.pushPop with
    | .inner => some .popValue
    | .outer => some .popStack
  | .pushTrue => some (.pushValue (.boolean true))
  | .pushFalse => some (.pushValue (.boolean false))
  | _ => none

/-- The data area after a request, if one is made. -/
def State.areaAfter (state : State) : Option Operation → Stacks
  | some operation => (state.perform operation).2.area
  | none => state.area

theorem area_combineOperand (combine : Value → Value → Value) (position : Nat) (state : State) :
    (combineOperand combine position state).2.area = (state.perform .popValue).2.area := by
  simp only [combineOperand, State.perform]
  cases state.popValue? with
  | none => rfl
  | some popped => rfl

/-- Executing an instruction leaves the data area that its request leaves. -/
theorem area_execute (instruction : Instruction) (position : Nat) (program : Program)
    (resolver : Resolver) (state : State) :
    (execute instruction position program resolver state).2.area =
      state.areaAfter (instruction.request? state) := by
  have jumped (direction : Direction) :
      (takeJump resolver program position direction state).2.area = state.area := by
    unfold takeJump
    split <;> rfl
  cases instruction with
  | add => exact area_combineOperand Value.add position state
  | nand => exact area_combineOperand Value.nand position state
  | push =>
    simp only [execute, Instruction.request?]
    cases state.mode.routing.pushPop <;> rfl
  | pop =>
    simp only [execute, Instruction.request?]
    cases state.mode.routing.pushPop with
    | inner => exact area_combineOperand (fun operand _ => operand) position state
    | outer =>
      simp only [State.areaAfter, State.perform]
      cases state.popStack? with
      | none => rfl
      | some popped => rfl
  | loopStart =>
    simp only [execute]
    split
    · rfl
    · exact jumped .forward
  | loopEnd =>
    simp only [execute]
    split
    · exact jumped .backward
    · rfl
  | _ => rfl

namespace Machine

variable {σ : Type}

/-- What the machine's next turn asks of the data area. An instruction that fails has asked before. -/
def request? (machine : Machine σ) : Option Operation :=
  match machine.program.get? machine.position with
  | none => none
  | some instruction =>
    if machine.limitReached then none else instruction.request? machine.state

variable [Sink σ]

/-- All requests made in a number of turns, the first one first. -/
def requests (machine : Machine σ) (turns : Nat) : List Operation :=
  (List.range turns).filterMap fun turn => (machine.later turn).request?

theorem requests_succ (machine : Machine σ) (turns : Nat) :
    machine.requests (turns + 1) =
      machine.requests turns ++ (machine.later turns).request?.toList :=
  filterMap_range_succ (fun turn => (machine.later turn).request?) turns

/-- A turn leaves the data area that its request leaves. -/
theorem area_successor (machine : Machine σ) :
    machine.successor.state.area = machine.state.areaAfter machine.request? := by
  cases machine.moment with
  | outside outside =>
    rw [successor, turn_of_outside outside]
    simp only [request?, outside]
    rfl
  | limited here reached =>
    rw [successor, turn_of_limited here reached]
    simp only [request?, here, reached, if_true]
    rfl
  | @faults instruction _ state here free executed =>
    have area := area_execute instruction machine.position machine.program machine.resolver
      machine.state
    rw [executed] at area
    rw [successor, turn_of_faults here free executed]
    simp only [request?, here, free, Bool.false_eq_true, if_false]
    exact area
  | @acts instruction effect state here free executed =>
    have area := area_execute instruction machine.position machine.program machine.resolver
      machine.state
    rw [executed] at area
    obtain ⟨-, -, stateAfter, -⟩ :=
      apply_frame { machine with state, steps := machine.steps + 1 } effect
    rw [successor, turn_of_acts here free executed, stateAfter]
    simp only [request?, here, free, Bool.false_eq_true, if_false]
    exact area

end Machine

/-! ### Bare sequences of stacks -/

/-- A sequence of stacks, top stack first, that may be empty. -/
abbrev BareStacks := List (List Value)

namespace BareStacks

/-- Carry out a request. There is no answer if the request looks at the top stack of an empty
sequence. -/
def perform? (sequence : BareStacks) : Operation → Option (Reply × BareStacks)
  | .pushValue value =>
    sequence[0]?.map fun top => (.done, sequence.set 0 (top ++ [value]))
  | .popValue =>
    sequence[0]?.map fun top => (.value top.head?, sequence.set 0 top.tail)
  | .pushStack => some (.done, [] :: sequence)
  | .popStack =>
    if sequence.length ≤ 1 then some (.stack none, sequence)
    else some (.stack sequence[0]?, sequence.tail)
  | .rotate .outer rotation => some (.done, rotateOnce rotation sequence)
  | .rotate .inner rotation =>
    sequence[0]?.map fun top => (.done, sequence.set 0 (rotateOnce rotation top))
  | .setAccumulator _ | .setMode _ | .setStyled => some (.done, sequence)

/-- On the stacks of a state a request is answered as the state answers it. -/
theorem perform?_toList (state : State) (operation : Operation) :
    perform? state.area.toList operation =
      some ((state.perform operation).1, (state.perform operation).2.area.toList) := by
  obtain ⟨accumulator, mode, ⟨top, below⟩, styled⟩ := state
  cases operation with
  | pushValue value => rfl
  | popValue => cases top <;> rfl
  | pushStack => rfl
  | popStack => cases below <;> rfl
  | rotate level rotation =>
    cases level with
    | inner => rfl
    | outer =>
      simp only [perform?, State.perform, State.rotate, Stacks.toList_rotate_outer]
  | setAccumulator value => rfl
  | setMode mode => rfl
  | setStyled => rfl

/-- Carry out requests one after the other, as long as each of them has an answer. -/
def replay? (requests : List Operation) (sequence : BareStacks) : Option BareStacks :=
  requests.foldlM (fun current operation => (current.perform? operation).map Prod.snd) sequence

theorem replay?_append (first second : List Operation) (sequence : BareStacks) :
    replay? (first ++ second) sequence = (replay? first sequence).bind (replay? second) := by
  exact List.foldlM_append

theorem replay?_areaAfter (state : State) (request : Option Operation) :
    replay? request.toList state.area.toList = some (state.areaAfter request).toList := by
  cases request with
  | none => rfl
  | some operation =>
    simp only [Option.toList_some, replay?, List.foldlM_cons, List.foldlM_nil, perform?_toList,
      Option.map_some, Option.bind_eq_bind, Option.bind_some]
    rfl

end BareStacks

/-- No request that a machine makes finds an empty sequence of stacks, and the sequence is always the
list of the machine's stacks. -/
theorem Machine.replay?_requests {σ : Type} [Sink σ] (machine : Machine σ) (turns : Nat) :
    BareStacks.replay? (machine.requests turns) machine.state.area.toList =
      some (machine.later turns).state.area.toList := by
  induction turns with
  | zero => rfl
  | succ turns ih =>
    rw [requests_succ, BareStacks.replay?_append, ih, Option.bind_some,
      BareStacks.replay?_areaAfter, later_succ, area_successor]

end Crosswire
