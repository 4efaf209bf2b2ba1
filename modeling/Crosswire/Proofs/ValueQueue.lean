/-
Module: Crosswire.Proofs.ValueQueue
Purpose: A value stack hands its values out in the order in which they came in. Each request to the top
  stack keeps one law: what it takes out, followed by what it leaves, is what was there, followed by what
  it puts in. Over a sequence of requests the same law holds for all that was taken out and all that was
  put in, so a pop finds nothing exactly when it has nothing left to find, and the other stacks take no
  part.
Imports: Crosswire.Proofs.PrivateFrames
Main exports: QueueRequest, pushedValues, poppedValues, State.queued_perform, State.queued_performAll,
  State.first_in_first_out
-/
import Crosswire.Proofs.PrivateFrames

namespace Crosswire

/-! ### Requests to the top stack -/

/-- A request to put a value into the top stack or to take one out. -/
inductive QueueRequest where
  | push (value : Value)
  | pop
deriving DecidableEq, Repr

namespace QueueRequest

def operation : QueueRequest → Operation
  | push value => .pushValue value
  | pop => .popValue

def pushed? : QueueRequest → Option Value
  | push value => some value
  | pop => none

end QueueRequest

/-- The value that a reply hands out, if it hands one out. -/
def Reply.popped? : Reply → Option Value
  | value popped => popped
  | done => none
  | stack _ => none

/-- All values that are put in, the first one first. -/
def pushedValues (requests : List QueueRequest) : List Value :=
  requests.filterMap QueueRequest.pushed?

/-- All values that were handed out, the first one first. -/
def poppedValues (replies : List Reply) : List Value :=
  replies.filterMap Reply.popped?

theorem pushedValues_cons (request : QueueRequest) (later : List QueueRequest) :
    pushedValues (request :: later) = request.pushed?.toList ++ pushedValues later := by
  cases request <;> rfl

theorem poppedValues_cons (reply : Reply) (later : List Reply) :
    poppedValues (reply :: later) = reply.popped?.toList ++ poppedValues later := by
  simp only [poppedValues, List.filterMap_cons]
  cases reply.popped? <;> rfl

namespace State

/-! ### One request -/

/-- A pop answers with the front of the top stack. -/
theorem perform_popValue (state : State) :
    (state.perform .popValue).1 = .value state.area.top.head? := by
  obtain ⟨accumulator, mode, ⟨top, below⟩, styled⟩ := state
  cases top <;> rfl

/-- What a request takes out and what it leaves are, in this order, what was there and what it puts
in. -/
theorem queued_perform (state : State) (request : QueueRequest) :
    (state.perform request.operation).1.popped?.toList ++
        (state.perform request.operation).2.area.top =
      state.area.top ++ request.pushed?.toList ∧
    (state.perform request.operation).2.area.below = state.area.below := by
  cases request with
  | push value => exact ⟨rfl, rfl⟩
  | pop =>
    obtain ⟨accumulator, mode, ⟨top, below⟩, styled⟩ := state
    cases top with
    | nil => exact ⟨rfl, rfl⟩
    | cons front rest => exact ⟨(List.append_nil (front :: rest)).symm, rfl⟩

/-! ### Requests in sequence -/

theorem length_performAll (state : State) (operations : List Operation) :
    (state.performAll operations).1.length = operations.length := by
  induction operations generalizing state with
  | nil => rfl
  | cons operation later ih => exact congrArg (· + 1) (ih (state.perform operation).2)

/-- The law of one request holds for all that a sequence of requests takes out and puts in. -/
theorem queued_performAll (state : State) (requests : List QueueRequest) :
    poppedValues (state.performAll (requests.map QueueRequest.operation)).1 ++
        (state.performAll (requests.map QueueRequest.operation)).2.area.top =
      state.area.top ++ pushedValues requests ∧
    (state.performAll (requests.map QueueRequest.operation)).2.area.below = state.area.below := by
  induction requests generalizing state with
  | nil => exact ⟨(List.append_nil state.area.top).symm, rfl⟩
  | cons request later ih =>
    obtain ⟨first, same⟩ := state.queued_perform request
    obtain ⟨others, stillSame⟩ := ih (state.perform request.operation).2
    simp only [List.map_cons, performAll, poppedValues_cons, pushedValues_cons]
    refine ⟨?_, stillSame.trans same⟩
    rw [List.append_assoc, others, ← List.append_assoc, first, List.append_assoc]

/-- Where a pop stands behind other requests, it answers with the front of what they leave. -/
theorem reply_to_pop (state : State) (earlier later : List QueueRequest) :
    let before := state.performAll (earlier.map QueueRequest.operation)
    let replies := (state.performAll ((earlier ++ .pop :: later).map QueueRequest.operation)).1
    replies.take earlier.length = before.1 ∧
      replies[earlier.length]? = some (.value before.2.area.top.head?) := by
  intro before replies
  have count : before.1.length = earlier.length := by
    rw [length_performAll, List.length_map]
  have split : replies = before.1 ++ (before.2.performAll
      (.popValue :: later.map QueueRequest.operation)).1 := by
    simp only [replies, List.map_append, List.map_cons, performAll_append]
    rfl
  rw [split, ← count]
  constructor
  · exact List.take_left
  · rw [List.getElem?_append_right (Nat.le_refl _), Nat.sub_self]
    exact congrArg some before.2.perform_popValue

/-- Values leave the top stack in the order in which they were there or were put in, none left out. A
pop comes back empty exactly if everything that was there or was put in before it has been taken out,
and no other stack is touched. -/
theorem first_in_first_out (state : State) (requests : List QueueRequest) :
    let performed := state.performAll (requests.map QueueRequest.operation)
    poppedValues performed.1 ++ performed.2.area.top = state.area.top ++ pushedValues requests ∧
    (∀ earlier later, requests = earlier ++ .pop :: later →
      ∃ popped, performed.1[earlier.length]? = some (.value popped) ∧
        (popped = none ↔ poppedValues (performed.1.take earlier.length) =
          state.area.top ++ pushedValues earlier)) ∧
    performed.2.area.below = state.area.below := by
  intro performed
  obtain ⟨queued, same⟩ := state.queued_performAll requests
  refine ⟨queued, ?_, same⟩
  rintro earlier later rfl
  obtain ⟨replied, answered⟩ := state.reply_to_pop earlier later
  obtain ⟨sofar, -⟩ := state.queued_performAll earlier
  refine ⟨_, answered, ?_⟩
  rw [replied, ← sofar, List.head?_eq_none_iff, List.self_eq_append_right]

/-- One value to begin with and three put in, with two of five pops coming back empty. -/
theorem first_in_first_out_drained :
    let state : State := { State.initial with area := ⟨[.integer 5], [[.boolean true]]⟩ }
    let requests : List QueueRequest :=
      [.pop, .pop, .push (.integer 1), .push (.boolean false), .pop, .pop, .pop, .push (.integer 2)]
    let performed := state.performAll (requests.map QueueRequest.operation)
    poppedValues performed.1 = [.integer 5, .integer 1, .boolean false] ∧
      performed.2.area = ⟨[.integer 2], [[.boolean true]]⟩ ∧
      performed.1[6]? = some (.value none) := by
  intro state requests performed
  obtain ⟨-, pops, -⟩ := first_in_first_out state requests
  obtain ⟨popped, answered, empty⟩ := pops
    [.pop, .pop, .push (.integer 1), .push (.boolean false), .pop, .pop] [.push (.integer 2)] rfl
  obtain rfl : popped = none := empty.2 rfl
  exact ⟨rfl, rfl, answered⟩

end State

end Crosswire
