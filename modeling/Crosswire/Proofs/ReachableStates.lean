/-
Module: Crosswire.Proofs.ReachableStates
Purpose: What holds of a machine at every point of its life, whatever the program, the configuration,
  the sink and the number of calls. The data area never runs out of stacks, the position stays in the
  program or right behind it, styling is never switched off, and the step counter respects the limit. A
  jump lands on a bracket of the other kind, and since the accumulator has not changed, that bracket
  falls through; so no two jumps follow each other.
Imports: Crosswire.Proofs.DataArea, Crosswire.Proofs.UnmatchedBrackets, Mathlib (chains in a list)
Main exports: Direction.opposite, getElem?_of_scan, Machine.Lands, Machine.Takes.lands,
  Machine.Lands.falls_through, Step.Lands, Machine.isChain_history, Machine.reachable_invariant
-/
import Mathlib.Data.List.Chain
import Crosswire.Proofs.DataArea
import Crosswire.Proofs.UnmatchedBrackets

namespace Crosswire

def Direction.opposite : Direction → Direction
  | forward => backward
  | backward => forward

theorem Direction.jumpsOnTruthy_opposite (direction : Direction) :
    direction.opposite.jumpsOnTruthy ≠ direction.jumpsOnTruthy := by
  cases direction <;> decide

/-! ### Where a scan comes to rest -/

theorem getElem?_of_firstUnpaired {opening closing : Instruction} {depth offset : Nat}
    {instructions : List Instruction}
    (found : firstUnpaired opening closing depth instructions = some offset) :
    instructions[offset]? = some closing := by
  induction instructions generalizing depth offset with
  | nil => cases found
  | cons instruction rest ih =>
    have deeper {inner : Nat}
        (behind : (firstUnpaired opening closing inner rest).map (· + 1) = some offset) :
        (instruction :: rest)[offset]? = some closing := by
      obtain ⟨earlier, there, rfl⟩ := Option.map_eq_some_iff.1 behind
      rw [List.getElem?_cons_succ]
      exact ih there
    unfold firstUnpaired at found
    split at found
    · exact deeper found
    · split at found
      · next closes =>
        split at found
        · cases found
          rw [List.getElem?_cons_zero, closes]
        · exact deeper found
      · exact deeper found

/-- A scan comes to rest on a bracket of the other kind. -/
theorem getElem?_of_scan {direction : Direction} {instructions : List Instruction}
    {position target : Nat} (found : scan direction instructions position = some target) :
    instructions[target]? = some direction.opposite.bracket := by
  cases direction with
  | forward =>
    obtain ⟨offset, there, rfl⟩ := Option.map_eq_some_iff.1 found
    rw [← List.getElem?_drop]
    exact getElem?_of_firstUnpaired there
  | backward =>
    obtain ⟨offset, there, rfl⟩ := Option.map_eq_some_iff.1 found
    have bound := firstUnpaired_lt_length there
    have here := getElem?_of_firstUnpaired there
    rw [List.length_reverse] at bound
    rw [List.getElem?_reverse bound, List.getElem?_take] at here
    split at here
    · exact here
    · cases here

/-- The step before `next` was no jump, or it was one to where `next` stands; the brackets of the two
are of opposite kinds, and `next` falls through. -/
def Step.Lands (step next : Step) : Prop :=
  ∀ target, step.effect = .jump target →
    ∃ direction : Direction, step.instruction = direction.bracket ∧ next.position = target ∧
      next.instruction = direction.opposite.bracket ∧ next.effect = .next

namespace Machine

variable {σ : Type}

/-- The machine stands where a jump in this direction has landed. -/
structure Lands (machine : Machine σ) (direction : Direction) (target : Nat) : Prop where
  position : machine.position = target
  here : machine.program.get? target = some direction.opposite.bracket
  truth : machine.state.accumulator.isTruthy = direction.jumpsOnTruthy

variable {machine : Machine σ} {step : Step}

/-! ### One turn -/

/-- With the accumulator that made the other bracket jump, this one does not. -/
theorem Lands.execute_eq {direction : Direction} {target : Nat}
    (lands : machine.Lands direction target) :
    execute direction.opposite.bracket machine.position machine.program machine.resolver
      machine.state = (.ok .next, machine.state) := by
  have other : machine.state.accumulator.isTruthy ≠ direction.opposite.jumpsOnTruthy := by
    rw [lands.truth]
    exact direction.jumpsOnTruthy_opposite.symm
  rw [execute_bracket, if_neg other]

/-- Where a jump has landed, the bracket is executed next, unless no more may be executed. -/
theorem Lands.step?_eq {direction : Direction} {target : Nat}
    (lands : machine.Lands direction target) (free : machine.limitReached = false) :
    machine.step? = some ⟨target, direction.opposite.bracket, machine.state, .next⟩ := by
  obtain rfl : machine.position = target := lands.position
  simp only [step?, lands.here, free, lands.execute_eq, Bool.false_eq_true, if_false]

variable [Sink σ]

theorem Takes.inside (takes : machine.Takes step) : machine.position < machine.program.length :=
  (List.getElem?_eq_some_iff.1 takes.here).1

/-- A jump lands on a bracket of the other kind, with the accumulator that made it jump. -/
theorem Takes.lands (takes : machine.Takes step) {target : Nat} (jumps : step.effect = .jump target) :
    ∃ direction : Direction, step.instruction = direction.bracket ∧
      machine.successor.Lands direction target := by
  have executed := takes.executed
  have leads := takes.leads
  have here := takes.here
  rw [jumps] at executed leads
  obtain ⟨direction, bracket, truth, resolved, same⟩ := execute_eq_jump executed
  rw [bracket] at here
  rw [machine.resolver_eq, Resolver.resolve_bracket here] at resolved
  refine ⟨direction, bracket, ?_⟩
  constructor
  · exact leads
  · rw [successor, machine.turn_frame.1]
    exact getElem?_of_scan resolved
  · rw [same]
    exact truth

/-- Where a jump has landed, the bracket falls through. -/
theorem Lands.falls_through {direction : Direction} {target : Nat}
    (lands : machine.Lands direction target) (takes : machine.Takes step) :
    step.position = target ∧ step.instruction = direction.opposite.bracket ∧
      step.effect = .next := by
  have bracket : step.instruction = direction.opposite.bracket := by
    have here := takes.here
    rw [lands.position, lands.here, Option.some.injEq] at here
    exact here.symm
  have executed := takes.executed
  rw [bracket, lands.execute_eq] at executed
  injection executed with effect
  injection effect with falls
  exact ⟨takes.position.trans lands.position, bracket, falls.symm⟩

theorem Takes.position_le (takes : machine.Takes step) :
    machine.successor.position ≤ machine.program.length := by
  have inside := takes.inside
  have leads := takes.leads
  cases effect : step.effect with
  | next =>
    rw [effect] at leads
    rw [show machine.successor.position = machine.position + 1 from leads]
    exact inside
  | jump target =>
    obtain ⟨direction, -, lands⟩ := takes.lands effect
    have there := lands.here
    rw [successor, machine.turn_frame.1] at there
    rw [lands.position]
    exact Nat.le_of_lt (List.getElem?_eq_some_iff.1 there).1
  | print value =>
    rw [effect] at leads
    rcases leads with moved | stayed
    · rw [moved]
      exact inside
    · rw [stayed]
      exact Nat.le_of_lt inside
  | halt =>
    rw [effect] at leads
    rw [show machine.successor.position = machine.position from leads]
    exact Nat.le_of_lt inside

theorem Takes.steps_le (takes : machine.Takes step) {limit : Nat}
    (limited : machine.config.maxSteps = some limit) : machine.successor.steps ≤ limit := by
  have free := takes.free
  simp only [limitReached, limited, decide_eq_false_iff_not, Nat.not_le] at free
  rw [takes.counted]
  exact free

/-! ### All turns -/

theorem position_later (inside : machine.position ≤ machine.program.length) (turns : Nat) :
    (machine.later turns).position ≤ machine.program.length := by
  have kept : (machine.later turns).position ≤ (machine.later turns).program.length := by
    apply later_induction (motive := fun _ here => here.position ≤ here.program.length) inside
    intro _ here step _ takes
    rw [successor, here.turn_frame.1]
    exact takes.position_le
  rw [(machine.later_frame turns).1] at kept
  exact kept

theorem steps_later_le {limit : Nat} (limited : machine.config.maxSteps = some limit)
    (within : machine.steps ≤ limit) (turns : Nat) : (machine.later turns).steps ≤ limit := by
  induction turns with
  | zero => exact within
  | succ turns ih =>
    rw [later_succ]
    rcases (machine.later turns).takes_or_rests with ⟨step, -, takes⟩ | ⟨-, same⟩
    · apply takes.steps_le
      rw [(machine.later_frame turns).2]
      exact limited
    · rw [same]
      exact ih

/-- Styling is never switched off. -/
theorem styled_later (styled : machine.state.styled = true) (turns : Nat) :
    (machine.later turns).state.styled = true := by
  apply later_induction (motive := fun _ here => here.state.styled = true) styled
  intro _ here step before takes
  rw [takes.styled, before, Bool.true_or]

/-- In a history every jump is followed by the bracket where it landed, which falls through. -/
theorem isChain_history (machine : Machine σ) (turns : Nat) :
    (machine.history turns).IsChain Step.Lands := by
  -- The last jump may not have been followed yet; then the machine stands where it landed.
  suffices kept : (machine.history turns).IsChain Step.Lands ∧
      ∀ step ∈ (machine.history turns).getLast?, ∀ target, step.effect = .jump target →
        ∃ direction : Direction, step.instruction = direction.bracket ∧
          (machine.later turns).Lands direction target from kept.1
  apply later_induction (motive := fun steps here => steps.IsChain Step.Lands ∧
    ∀ step ∈ steps.getLast?, ∀ target, step.effect = .jump target →
      ∃ direction : Direction, step.instruction = direction.bracket ∧ here.Lands direction target)
  · constructor
    · exact List.isChain_nil
    · intro step member
      cases member
  · rintro steps here step ⟨chain, landed⟩ takes
    constructor
    · apply chain.append (List.isChain_singleton step)
      intro last isLast next isNext target jumps
      obtain rfl : step = next := by simpa using isNext
      obtain ⟨direction, bracket, lands⟩ := landed last isLast target jumps
      exact ⟨direction, bracket, lands.falls_through takes⟩
    · intro last isLast target jumps
      obtain rfl : step = last := by simpa using isLast
      exact takes.lands jumps

/-- What holds at every point of the life of a machine. The points are the machines `later turns`,
which are all machines that any number of calls come by. -/
theorem reachable_invariant (program : Program) (sink : σ) (config : Config) (words : Words) :
    let machine := create program sink config words
    (∀ here, machine.Visits here → ∃ turns, machine.later turns = here) ∧
    -- There is a top stack, and so there was at every request made of the bare sequence of stacks.
    (∀ turns, (machine.later turns).state.area.toList ≠ [] ∧
      BareStacks.replay? (machine.requests turns) [[]] =
        some (machine.later turns).state.area.toList) ∧
    (∀ turns, (machine.later turns).position ≤ program.length) ∧
    (∀ turns more, (machine.later turns).state.styled = true →
      (machine.later (turns + more)).state.styled = true) ∧
    (∀ limit, config.maxSteps = some limit → ∀ turns, (machine.later turns).steps ≤ limit) ∧
    -- A jump leaves the machine inside the program, at a bracket of the other kind, which the next turn
    -- executes unless the limit is reached.
    (∀ turns step target, (machine.later turns).step? = some step → step.effect = .jump target →
      ∃ direction : Direction, step.instruction = direction.bracket ∧
        (machine.later (turns + 1)).position = target ∧ target < program.length ∧
        program.get? target = some direction.opposite.bracket ∧
        ((machine.later (turns + 1)).limitReached = false →
          ∃ next, (machine.later (turns + 1)).step? = some next ∧ next.effect = .next)) ∧
    -- The next executed step is that bracket falling through, so no two jumps follow each other.
    (∀ turns, (machine.history turns).IsChain Step.Lands ∧
      (machine.history turns).IsChain fun step next =>
        ¬ ∃ target other, step.effect = .jump target ∧ next.effect = .jump other) := by
  intro machine
  refine ⟨?_, ?_, ?_, ?_, ?_, ?_, ?_⟩
  · intro here visits
    exact visits.exists_later
  · intro turns
    exact ⟨List.cons_ne_nil _ _, machine.replay?_requests turns⟩
  · intro turns
    exact position_later (Nat.zero_le _) turns
  · intro turns more styled
    rw [later_add]
    exact styled_later styled more
  · intro limit limited turns
    exact steps_later_le limited (Nat.zero_le _) turns
  · intro turns step target taken jumps
    obtain ⟨direction, bracket, lands⟩ := (takes_of_step? taken).lands jumps
    rw [← later_succ] at lands
    have there := lands.here
    rw [(machine.later_frame (turns + 1)).1] at there
    refine ⟨direction, bracket, lands.position, (List.getElem?_eq_some_iff.1 there).1, there, ?_⟩
    intro free
    exact ⟨_, lands.step?_eq free, rfl⟩
  · intro turns
    have chain := machine.isChain_history turns
    refine ⟨chain, chain.imp ?_⟩
    rintro step next lands ⟨target, other, jumps, jumpsToo⟩
    obtain ⟨-, -, -, -, falls⟩ := lands target jumps
    rw [falls] at jumpsToo
    cases jumpsToo

end Machine

end Crosswire
