/-
Module: Crosswire.Proofs.Conservation
Purpose: No value is lost or doubled. A request to the data area changes its values only by what the
  request hands over and what the answer takes out; rotations change nothing. Read along a history, the
  values in all stacks together with those consumed as operands and those dropped with a stack are
  exactly the values that were pushed, and the stacks are counted in the same way.
Imports: Crosswire.Proofs.DataArea, Mathlib (multisets)
Main exports: Stacks.values, values_areaAfter, depth_areaAfter, Step.pushed, Step.consumed,
  Step.dropped, Step.opensStack, Step.closesStack, Machine.Takes.conserves, Machine.values_conserved
-/
import Mathlib.Algebra.BigOperators.Group.List.Basic
import Mathlib.Algebra.Order.Group.Multiset
import Mathlib.Tactic.Abel
import Crosswire.Proofs.DataArea

namespace Crosswire

/-- All values in all stacks, without their order. -/
def Stacks.values (area : Stacks) : Multiset Value :=
  area.toList.flatten

theorem Stacks.values_mk (top : List Value) (below : List (List Value)) :
    Stacks.values ⟨top, below⟩ = (top : Multiset Value) + (below.flatten : Multiset Value) := by
  rw [values, toList, List.flatten_cons, Multiset.coe_add]

/-! ### Rotations -/

theorem perm_rotateOnce {α : Type} (rotation : Rotation) (elements : List α) :
    (rotateOnce rotation elements).Perm elements := by
  cases rotation with
  | right =>
    cases elements using List.reverseRecOn with
    | nil => exact .refl _
    | append_singleton earlier last =>
      simp only [rotateOnce, List.getLast?_concat, List.dropLast_concat]
      exact (List.perm_append_singleton last earlier).symm
  | left =>
    cases elements with
    | nil => exact .refl _
    | cons first rest => exact List.perm_append_singleton first rest

theorem Stacks.values_rotate (area : Stacks) (level : Level) (rotation : Rotation) :
    (area.rotate level rotation).values = area.values := by
  apply Multiset.coe_eq_coe.2
  cases level with
  | outer =>
    rw [toList_rotate_outer]
    exact (perm_rotateOnce rotation area.toList).flatten
  | inner =>
    rw [toList_rotate_inner, toList, List.flatten_cons, List.flatten_cons]
    exact (perm_rotateOnce rotation area.top).append_right _

theorem Stacks.depth_rotate (area : Stacks) (level : Level) (rotation : Rotation) :
    (area.rotate level rotation).depth = area.depth := by
  rw [← length_toList, ← length_toList]
  cases level with
  | outer => rw [toList_rotate_outer, length_rotateOnce]
  | inner => rfl

/-! ### Requests -/

/-- The values that a request hands to the data area. -/
def givenBy : Option Operation → Multiset Value
  | some (.pushValue value) => {value}
  | _ => 0

/-- The values that an answer takes out of the data area. -/
def Reply.taken : Reply → Multiset Value
  | value (some popped) => {popped}
  | stack (some popped) => popped
  | _ => 0

/-- How many stacks a request puts on top. -/
def openedBy : Option Operation → Nat
  | some .pushStack => 1
  | _ => 0

/-- How many stacks an answer takes off. -/
def Reply.closed : Reply → Nat
  | stack (some _) => 1
  | _ => 0

/-- The answer to a request, if one is made. -/
def State.replyTo (state : State) : Option Operation → Reply
  | some operation => (state.perform operation).1
  | none => .done

/-- A request changes the values only by what is handed over and what is taken out. -/
theorem values_areaAfter (state : State) (request : Option Operation) :
    (state.areaAfter request).values + (state.replyTo request).taken =
      state.area.values + givenBy request := by
  obtain ⟨accumulator, mode, ⟨top, below⟩, styled⟩ := state
  cases request with
  | none => rfl
  | some operation =>
    cases operation with
    | pushValue value =>
      have grown : ((top ++ [value] : List Value) : Multiset Value) = top + {value} := by
        rw [← Multiset.coe_add, Multiset.coe_singleton]
      simp only [State.areaAfter, State.replyTo, State.perform, State.pushValue, Stacks.pushValue,
        Stacks.values_mk, Reply.taken, givenBy, grown]
      abel
    | popValue =>
      cases top with
      | nil => rfl
      | cons value rest =>
        simp only [State.areaAfter, State.replyTo, State.perform, State.popValue?,
          Stacks.popValue?, Stacks.values_mk, Reply.taken, givenBy, ← Multiset.cons_coe,
          ← Multiset.singleton_add]
        abel
    | pushStack => rfl
    | popStack =>
      cases below with
      | nil => rfl
      | cons next rest =>
        simp only [State.areaAfter, State.replyTo, State.perform, State.popStack?,
          Stacks.popStack?, Stacks.values_mk, Reply.taken, givenBy, List.flatten_cons,
          ← Multiset.coe_add]
        abel
    | rotate level rotation => exact congrArg (· + 0) (Stacks.values_rotate _ level rotation)
    | setAccumulator value => rfl
    | setMode mode => rfl
    | setStyled => rfl

/-- A request changes the number of stacks only by those put on top and taken off. -/
theorem depth_areaAfter (state : State) (request : Option Operation) :
    (state.areaAfter request).depth + (state.replyTo request).closed =
      state.area.depth + openedBy request := by
  obtain ⟨accumulator, mode, ⟨top, below⟩, styled⟩ := state
  cases request with
  | none => rfl
  | some operation =>
    cases operation with
    | pushValue value => rfl
    | popValue => cases top <;> rfl
    | pushStack => rfl
    | popStack => cases below <;> rfl
    | rotate level rotation => exact Stacks.depth_rotate _ level rotation
    | setAccumulator value => rfl
    | setMode mode => rfl
    | setStyled => rfl

/-! ### Executed instructions -/

namespace Step

/-- The values that a step has pushed: truth values, and in two-dimensional mode the accumulator. -/
def pushed (step : Step) : Multiset Value :=
  match step.instruction, step.state.mode with
  | .pushTrue, _ => {.boolean true}
  | .pushFalse, _ => {.boolean false}
  | .push, .twoD => {step.state.accumulator}
  | _, _ => 0

/-- The operand that a step has consumed: the front value of the top stack, for addition and nand, and
for a pop in two-dimensional mode. -/
def consumed (step : Step) : Multiset Value :=
  match step.instruction, step.state.mode with
  | .add, _ | .nand, _ | .pop, .twoD => step.state.area.top.head?.toList
  | _, _ => 0

/-- The values dropped with a stack: the whole top stack, for a pop in one-dimensional mode. -/
def dropped (step : Step) : Multiset Value :=
  match step.instruction, step.state.mode with
  | .pop, .oneD => step.state.area.top
  | _, _ => 0

/-- A push in one-dimensional mode. -/
def opensStack (step : Step) : Bool :=
  step.instruction = .push && step.state.mode = .oneD

/-- A pop in one-dimensional mode. -/
def closesStack (step : Step) : Bool :=
  step.instruction = .pop && step.state.mode = .oneD

/-- What a step pushes is what its request hands over. -/
theorem givenBy_request (step : Step) :
    givenBy (step.instruction.request? step.state) = step.pushed ∧
      openedBy (step.instruction.request? step.state) = step.opensStack.toNat := by
  obtain ⟨position, instruction, ⟨accumulator, mode, area, styled⟩, effect⟩ := step
  cases instruction <;> cases mode <;> exact ⟨rfl, rfl⟩

end Step

theorem taken_popValue (state : State) :
    (state.replyTo (some .popValue)).taken = (state.area.top.head?.toList : Multiset Value) ∧
      (state.replyTo (some .popValue)).closed = 0 := by
  obtain ⟨accumulator, mode, ⟨top, below⟩, styled⟩ := state
  cases top <;> exact ⟨rfl, rfl⟩

/-- A pop in one-dimensional mode that is executed takes the top stack off. -/
theorem replyTo_popStack {state next : State} {position : Nat} {program : Program}
    {resolver : Resolver} {effect : Effect} (oneD : state.mode = .oneD)
    (executed : execute .pop position program resolver state = (.ok effect, next)) :
    state.replyTo (some .popStack) = .stack (some state.area.top) := by
  obtain ⟨accumulator, mode, ⟨top, below⟩, styled⟩ := state
  obtain rfl : mode = .oneD := oneD
  cases below with
  | nil => cases executed
  | cons under rest => rfl

namespace Machine

variable {σ : Type} [Sink σ] {machine : Machine σ} {step : Step}

/-- What a step consumes and drops is what the answer to its request takes out. -/
theorem Takes.taken (takes : machine.Takes step) :
    (step.state.replyTo (step.instruction.request? step.state)).taken =
        step.consumed + step.dropped ∧
      (step.state.replyTo (step.instruction.request? step.state)).closed =
        step.closesStack.toNat := by
  have executed := takes.executed
  rw [← takes.state] at executed
  obtain ⟨position, instruction, ⟨accumulator, mode, area, styled⟩, effect⟩ := step
  have operand := taken_popValue ⟨accumulator, mode, area, styled⟩
  cases instruction with
  | add => exact ⟨operand.1.trans (add_zero _).symm, operand.2⟩
  | nand => exact ⟨operand.1.trans (add_zero _).symm, operand.2⟩
  | pop =>
    cases mode with
    | twoD => exact ⟨operand.1.trans (add_zero _).symm, operand.2⟩
    | oneD =>
      have reply := replyTo_popStack rfl executed
      refine ⟨?_, ?_⟩
      · exact (congrArg Reply.taken reply).trans (zero_add _).symm
      · exact congrArg Reply.closed reply
  | push => cases mode <;> exact ⟨rfl, rfl⟩
  | _ => exact ⟨rfl, rfl⟩

/-- One step conserves values and stacks. -/
theorem Takes.conserves (takes : machine.Takes step) :
    machine.successor.state.area.values + (step.consumed + step.dropped) =
        machine.state.area.values + step.pushed ∧
      machine.successor.state.area.depth + step.closesStack.toNat =
        machine.state.area.depth + step.opensStack.toNat := by
  have area := area_execute step.instruction machine.position machine.program machine.resolver
    machine.state
  rw [takes.executed, ← takes.state] at area
  have values := values_areaAfter step.state (step.instruction.request? step.state)
  have depth := depth_areaAfter step.state (step.instruction.request? step.state)
  rw [takes.taken.1, step.givenBy_request.1, ← area, takes.state] at values
  rw [takes.taken.2, step.givenBy_request.2, ← area, takes.state] at depth
  exact ⟨values, depth⟩

/-! ### Histories -/

/-- The values of the stacks, the operands consumed and the values dropped are those that were there
and those that were pushed. -/
theorem values_later (machine : Machine σ) (turns : Nat) :
    (machine.later turns).state.area.values + ((machine.history turns).map Step.consumed).sum +
        ((machine.history turns).map Step.dropped).sum =
      machine.state.area.values + ((machine.history turns).map Step.pushed).sum := by
  apply later_induction (motive := fun steps here =>
    here.state.area.values + (steps.map Step.consumed).sum + (steps.map Step.dropped).sum =
      machine.state.area.values + (steps.map Step.pushed).sum)
  · simp only [List.map_nil, List.sum_nil, add_zero]
  · intro steps here step before takes
    simp only [List.map_append, List.sum_append, List.map_singleton, List.sum_singleton]
    calc here.successor.state.area.values + ((steps.map Step.consumed).sum + step.consumed) +
          ((steps.map Step.dropped).sum + step.dropped)
        = here.successor.state.area.values + (step.consumed + step.dropped) +
            ((steps.map Step.consumed).sum + (steps.map Step.dropped).sum) := by abel
      _ = here.state.area.values + step.pushed +
            ((steps.map Step.consumed).sum + (steps.map Step.dropped).sum) := by
          rw [takes.conserves.1]
      _ = here.state.area.values + (steps.map Step.consumed).sum + (steps.map Step.dropped).sum +
            step.pushed := by abel
      _ = machine.state.area.values + ((steps.map Step.pushed).sum + step.pushed) := by
          rw [before, add_assoc]

theorem depth_later (machine : Machine σ) (turns : Nat) :
    (machine.later turns).state.area.depth + (machine.history turns).countP Step.closesStack =
      machine.state.area.depth + (machine.history turns).countP Step.opensStack := by
  apply later_induction (motive := fun steps here =>
    here.state.area.depth + steps.countP Step.closesStack =
      machine.state.area.depth + steps.countP Step.opensStack)
  · rfl
  · intro steps here step before takes
    have one := takes.conserves.2
    have count (holds : Step → Bool) :
        (steps ++ [step]).countP holds = steps.countP holds + (holds step).toNat := by
      rw [List.countP_append, List.countP_singleton]
      cases holds step <;> rfl
    rw [count, count]
    omega

/-- At every point of the life of a machine, the values in all stacks, the operands consumed so far and
the values dropped with a stack so far are exactly the values pushed so far, and there is one stack
more than were opened and not closed. -/
theorem values_conserved (program : Program) (sink : σ) (config : Config) (words : Words)
    (turns : Nat) :
    let machine := create program sink config words
    let steps := machine.history turns
    (machine.later turns).steps = steps.length ∧
    (machine.later turns).state.area.values + (steps.map Step.consumed).sum +
        (steps.map Step.dropped).sum = (steps.map Step.pushed).sum ∧
    ((machine.later turns).state.area.depth : Int) =
      1 + steps.countP Step.opensStack - steps.countP Step.closesStack := by
  intro machine steps
  refine ⟨?_, ?_, ?_⟩
  · rw [steps_later]
    exact Nat.zero_add _
  · rw [values_later]
    exact zero_add _
  · have counted : (machine.later turns).state.area.depth + steps.countP Step.closesStack =
        1 + steps.countP Step.opensStack := machine.depth_later turns
    omega

end Machine

end Crosswire
