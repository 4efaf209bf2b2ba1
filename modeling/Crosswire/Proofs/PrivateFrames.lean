/-
Module: Crosswire.Proofs.PrivateFrames
Purpose: A stack that is put on top is a frame of its own. As long as the stacks are not rotated among
  themselves, requests reach no stack below the frames that were opened and not closed: the stacks from
  before stay where they are, in their order and with their values (`Stacks.Above`). Each request keeps
  this, with one frame more or less for a stack put on or taken off, so a sequence that closes what it
  opens, and nothing else, leaves the data area as it found it.
Imports: Crosswire.State
Main exports: State.performAll, Stacks.Above, State.above_perform, State.above_performAll,
  State.pushed_stack_private
-/
import Crosswire.State

namespace Crosswire

/-! ### Requests in sequence -/

namespace State

/-- Carry out requests one after the other: the answer to each of them, and the state in the end. -/
def performAll (state : State) : List Operation → List Reply × State
  | [] => ([], state)
  | operation :: later =>
    let (reply, next) := state.perform operation
    let (replies, final) := next.performAll later
    (reply :: replies, final)

theorem performAll_append (state : State) (first second : List Operation) :
    state.performAll (first ++ second) =
      ((state.performAll first).1 ++ ((state.performAll first).2.performAll second).1,
        ((state.performAll first).2.performAll second).2) := by
  induction first generalizing state with
  | nil => rfl
  | cons operation later ih =>
    simp only [List.cons_append, performAll, ih]

end State

/-! ### Frames -/

namespace Stacks

theorem eq_of_toList_eq {area other : Stacks} (same : area.toList = other.toList) : area = other := by
  cases area
  cases other
  cases same
  rfl

/-- The data area has a number of frames on top of the stacks `kept`. -/
def Above (area : Stacks) (frames : Nat) (kept : List (List Value)) : Prop :=
  ∃ opened : List (List Value), opened.length = frames ∧ area.toList = opened ++ kept

namespace Above

variable {area other : Stacks} {frames : Nat} {kept : List (List Value)}

theorem zero_iff : area.Above 0 kept ↔ area.toList = kept := by
  constructor
  · rintro ⟨opened, none, listed⟩
    rw [listed, List.eq_nil_of_length_eq_zero none, List.nil_append]
  · intro listed
    exact ⟨[], rfl, listed⟩

theorem pushStack (above : area.Above frames kept) : area.pushStack.Above (frames + 1) kept := by
  obtain ⟨opened, count, listed⟩ := above
  refine ⟨[] :: opened, congrArg (· + 1) count, ?_⟩
  rw [toList_pushStack, listed]
  rfl

/-- Where a frame is open and something is kept below it, a stack can be taken off. -/
theorem popStack (above : area.Above (frames + 1) kept) (below : kept ≠ []) :
    ∃ popped rest, area.popStack? = some (popped, rest) ∧ rest.Above frames kept := by
  obtain ⟨opened, count, listed⟩ := above
  cases opened with
  | nil => cases count
  | cons frame older =>
    have under : area.below = older ++ kept := (List.cons.inj listed).2
    cases remaining : older ++ kept with
    | nil => exact absurd (List.append_eq_nil_iff.1 remaining).2 below
    | cons next rest =>
      refine ⟨area.top, ⟨next, rest⟩, ?_, older, Nat.succ.inj count, remaining.symm⟩
      simp only [popStack?, under, remaining]

/-- What is done to the top stack stays in the newest frame. -/
theorem of_below_eq (above : area.Above (frames + 1) kept) (same : other.below = area.below) :
    other.Above (frames + 1) kept := by
  obtain ⟨opened, count, listed⟩ := above
  cases opened with
  | nil => cases count
  | cons frame older =>
    obtain ⟨-, under⟩ := List.cons.inj listed
    refine ⟨other.top :: older, count, ?_⟩
    rw [toList, same, under]
    rfl

end Above

end Stacks

namespace State

variable {state : State} {frames : Nat} {kept : List (List Value)} {operation : Operation}

/-! ### What requests reach -/

/-- A request that neither puts on nor takes off a stack, nor rotates the stacks, leaves all stacks but
the top one alone. -/
theorem perform_inside (state : State) (notPush : operation ≠ .pushStack)
    (notPop : operation ≠ .popStack) (unturned : ∀ rotation, operation ≠ .rotate .outer rotation) :
    (state.perform operation).1 ≠ .stack none ∧
      (state.perform operation).2.area.below = state.area.below := by
  cases operation with
  | pushStack => exact absurd rfl notPush
  | popStack => exact absurd rfl notPop
  | rotate level rotation =>
    cases level with
    | outer => exact absurd rfl (unturned rotation)
    | inner => exact ⟨nofun, rfl⟩
  | popValue =>
    obtain ⟨accumulator, mode, ⟨top, below⟩, styled⟩ := state
    cases top <;> exact ⟨nofun, rfl⟩
  | pushValue value => exact ⟨nofun, rfl⟩
  | setAccumulator value => exact ⟨nofun, rfl⟩
  | setMode mode => exact ⟨nofun, rfl⟩
  | setStyled => exact ⟨nofun, rfl⟩

theorem perform_popStack (above : state.area.Above (frames + 1) kept) (below : kept ≠ []) :
    (state.perform .popStack).1 ≠ .stack none ∧
      (state.perform .popStack).2.area.Above frames kept := by
  obtain ⟨popped, rest, taken, still⟩ := above.popStack below
  simp only [perform, popStack?, taken]
  exact ⟨nofun, still⟩

/-- One request, with a frame besides those that it may close: it is not refused a stack, and what is
kept below the frames stays. -/
theorem above_perform (above : state.area.Above (frames + 1) kept) (below : kept ≠ [])
    (unturned : ∀ rotation, operation ≠ .rotate .outer rotation)
    (enough : [operation].count .popStack ≤ [operation].count .pushStack + frames) :
    (state.perform operation).1 ≠ .stack none ∧
      ∃ left, left + [operation].count .popStack = frames + [operation].count .pushStack ∧
        (state.perform operation).2.area.Above (left + 1) kept := by
  by_cases pushes : operation = .pushStack
  · subst pushes
    exact ⟨nofun, frames + 1, rfl, above.pushStack⟩
  · by_cases pops : operation = .popStack
    · subst pops
      have one : 1 ≤ frames := by simpa using enough
      obtain ⟨older, rfl⟩ := Nat.exists_eq_add_of_le' one
      obtain ⟨answered, still⟩ := perform_popStack above below
      exact ⟨answered, older, rfl, still⟩
    · obtain ⟨answered, same⟩ := state.perform_inside pushes pops unturned
      refine ⟨answered, frames, ?_, above.of_below_eq same⟩
      rw [List.count_singleton, List.count_singleton, if_neg (by simpa using pops),
        if_neg (by simpa using pushes)]

/-- A sequence of requests that closes no more frames than are open, one besides excepted, is never
refused a stack, and what is kept below the frames stays. -/
theorem above_performAll {operations : List Operation} (above : state.area.Above (frames + 1) kept)
    (below : kept ≠ []) (unturned : ∀ rotation, .rotate .outer rotation ∉ operations)
    (nested : ∀ length, (operations.take length).count .popStack ≤
      (operations.take length).count .pushStack + frames) :
    .stack none ∉ (state.performAll operations).1 ∧
      ∃ left, left + operations.count .popStack = frames + operations.count .pushStack ∧
        (state.performAll operations).2.area.Above (left + 1) kept := by
  induction operations generalizing state frames with
  | nil => exact ⟨List.not_mem_nil, frames, rfl, above⟩
  | cons operation later ih =>
    have split (request : Operation) (length : Nat) :
        ((operation :: later).take (length + 1)).count request =
          [operation].count request + (later.take length).count request := by
      rw [List.take_succ_cons, ← List.singleton_append, List.count_append]
    have first (rotation : Rotation) : operation ≠ .rotate .outer rotation := by
      rintro rfl
      exact unturned rotation (List.mem_cons_self ..)
    obtain ⟨answered, between, counted, still⟩ := above_perform above below first (nested 1)
    have nestedLater (length : Nat) : (later.take length).count .popStack ≤
        (later.take length).count .pushStack + between := by
      have whole := nested (length + 1)
      rw [split, split] at whole
      omega
    obtain ⟨others, left, countedLater, stillLater⟩ := ih still
      (fun rotation member => unturned rotation (List.mem_cons_of_mem _ member)) nestedLater
    refine ⟨?_, left, ?_, stillLater⟩
    · simp only [performAll, List.mem_cons, not_or]
      exact ⟨answered.symm, others⟩
    · rw [← List.singleton_append, List.count_append, List.count_append]
      omega

/-- Between putting a stack on top and taking it off again, requests may do with the new stack what they
like, and put on and take off further stacks as long as they take off none but their own: no stack is
refused to them, and all stacks that were there before are left as they were. -/
theorem pushed_stack_private (state : State) (operations : List Operation)
    (unturned : ∀ rotation, .rotate .outer rotation ∉ operations)
    (nested : ∀ length, (operations.take length).count .popStack ≤
      (operations.take length).count .pushStack)
    (balanced : operations.count .popStack = operations.count .pushStack) :
    let performed := state.performAll (.pushStack :: operations ++ [.popStack])
    .stack none ∉ performed.1 ∧ performed.2.area = state.area := by
  intro performed
  have below : state.area.toList ≠ [] := nofun
  have start : (state.perform .pushStack).2.area.Above 1 state.area.toList :=
    Stacks.Above.pushStack (Stacks.Above.zero_iff.2 rfl)
  obtain ⟨answered, left, counted, above⟩ := above_performAll start below unturned nested
  obtain rfl : left = 0 := by omega
  obtain ⟨last, restored⟩ := perform_popStack above below
  have split : performed =
      (.done :: ((state.perform .pushStack).2.performAll operations).1 ++
          [(((state.perform .pushStack).2.performAll operations).2.perform .popStack).1],
        (((state.perform .pushStack).2.performAll operations).2.perform .popStack).2) :=
    performAll_append state (.pushStack :: operations) [.popStack]
  rw [split]
  refine ⟨?_, Stacks.eq_of_toList_eq (Stacks.Above.zero_iff.1 restored)⟩
  simp only [List.cons_append, List.mem_cons, List.mem_append, not_or]
  exact ⟨nofun, answered, last.symm, List.not_mem_nil⟩

/-- With two stacks below, a frame is drained, filled and rotated, with another frame inside. -/
theorem pushed_stack_private_nested :
    let state : State :=
      { State.initial with area := ⟨[.boolean true, .integer 7], [[.integer 5], []]⟩ }
    let operations : List Operation :=
      [.popValue, .pushValue (.integer 1), .pushValue (.integer 2), .rotate .inner .left, .pushStack,
        .popValue, .setMode .twoD, .popStack, .setAccumulator (.boolean false), .popValue]
    (state.performAll (.pushStack :: operations ++ [.popStack])).2.area = state.area := by
  intro state operations
  have unturned (rotation : Rotation) : .rotate .outer rotation ∉ operations := by
    cases rotation <;> decide
  have nested (length : Nat) : (operations.take length).count .popStack ≤
      (operations.take length).count .pushStack := by
    rcases Nat.lt_or_ge length 10 with short | long
    · revert length
      decide
    · rw [List.take_of_length_le long]
      decide
  exact (pushed_stack_private state operations unturned nested rfl).2

end State

end Crosswire
