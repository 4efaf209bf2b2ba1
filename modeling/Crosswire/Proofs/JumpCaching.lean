/-
Module: Crosswire.Proofs.JumpCaching
Purpose: Pairing all brackets up front is invisible. A machine that looks partners up and one that
  scans for them go through the same turns: at a bracket both find the same partner, and nowhere else
  is a partner asked for. So whatever the program, its nesting, the step limit, the sink and the number
  of calls, every call gives the same answer; only the event that opens a call names the choice.
Imports: Crosswire.Proofs.Turns
Main exports: Event.caching, Machine.caching, Run.advance_caching, Machine.Answers.caching,
  Machine.caching_unobservable
-/
import Crosswire.Proofs.Turns

namespace Crosswire

/-- The event as a machine logs it that caches its jumps or does not. Only the opening event of a call
tells. -/
def Event.caching (cached : Bool) : Event → Event
  | .started instructions _ => .started instructions cached
  | event => event

@[simp] theorem Event.caching_caching (cached earlier : Bool) (event : Event) :
    (event.caching earlier).caching cached = event.caching cached := by
  cases event <;> rfl

/-- An answer as a machine gives it that caches its jumps or does not. -/
def Answer.caching {σ : Type} (cached : Bool) (answer : Answer σ) : Answer σ :=
  { answer with events := answer.events.map (Event.caching cached) }

@[simp] theorem Answer.caching_caching {σ : Type} (cached earlier : Bool) (answer : Answer σ) :
    (answer.caching earlier).caching cached = answer.caching cached := by
  simp [Answer.caching]

namespace Machine

variable {σ : Type}

/-- The same machine, caching its jumps or not. -/
def caching (machine : Machine σ) (cached : Bool) : Machine σ :=
  machine.reconfigure { machine.config with cacheJumps := cached }

variable [Sink σ]

/-- No event of a turn tells how partners are found. -/
theorem turn_events_caching (machine : Machine σ) (cached : Bool) :
    machine.turn.1.map (Event.caching cached) = machine.turn.1 := by
  have traced (instruction : Instruction) :
      (machine.stepEvents instruction).map (Event.caching cached) =
        machine.stepEvents instruction := by
    unfold stepEvents
    split <;> rfl
  cases machine.moment with
  | outside outside =>
    rw [turn_of_outside outside]
    rfl
  | limited here reached =>
    rw [turn_of_limited here reached]
    rfl
  | faults here free executed =>
    rw [turn_of_faults here free executed, List.map_append, traced]
    rfl
  | @acts _ effect state here free executed =>
    rw [turn_of_acts here free executed, List.map_append, traced]
    cases effect <;> rfl

theorem turn_caching (machine : Machine σ) (cached : Bool) :
    (machine.caching cached).turn =
      (machine.turn.1, machine.turn.2.reconfigure { machine.config with cacheJumps := cached }) :=
  machine.turn_reconfigure rfl rfl

theorem goesOn_caching {machine next : Machine σ} (goes : machine.turn.2 = .goesOn next)
    (cached : Bool) : (machine.caching cached).turn.2 = .goesOn (next.caching cached) := by
  have config := machine.turn_frame.2
  rw [goes] at config
  rw [turn_caching, goes, caching, show next.config = machine.config from config]
  rfl

theorem returns_caching {machine final : Machine σ} {result : RunResult}
    (returns : machine.turn.2 = .returns result final) (cached : Bool) :
    (machine.caching cached).turn.2 = .returns result (final.caching cached) := by
  have config := machine.turn_frame.2
  rw [returns] at config
  rw [turn_caching, returns, caching, show final.config = machine.config from config]
  rfl

end Machine

namespace Run

variable {σ : Type}

/-- A run call as a machine makes it that caches its jumps or does not. -/
def caching (run : Run σ) (cached : Bool) : Run σ :=
  ⟨run.machine.caching cached, run.events.map (Event.caching cached), run.result⟩

variable [Sink σ]

/-- One turn of a run is the same with and without caching. -/
theorem step_caching (run : Run σ) (cached : Bool) :
    (run.caching cached).step = run.step.caching cached := by
  obtain ⟨machine, earlier, _ | result⟩ := run
  · have log : (earlier ++ machine.turn.1).map (Event.caching cached) =
        earlier.map (Event.caching cached) ++ (machine.caching cached).turn.1 := by
      apply Array.toList_inj.1
      simp [machine.turn_events_caching cached, machine.turn_caching cached]
    cases turned : machine.turn.2 with
    | goesOn next =>
      rw [Machine.step_of_goesOn turned]
      simp only [caching, log]
      exact Machine.step_of_goesOn (Machine.goesOn_caching turned cached) _
    | returns result final =>
      rw [Machine.step_of_returns turned]
      simp only [caching, log]
      exact Machine.step_of_returns (Machine.returns_caching turned cached) _
  · rfl

/-- Any number of turns of a run are the same with and without caching. -/
theorem advance_caching (run : Run σ) (cached : Bool) (turns : Nat) :
    (run.caching cached).advance turns = (run.advance turns).caching cached := by
  induction turns generalizing run with
  | zero => rfl
  | succ turns ih => rw [advance_succ, advance_succ, step_caching, ih]

/-- A call returns with caching what it returns without, and conversely. -/
theorem Returns.caching {machine final : Machine σ} {result : RunResult} {events : Array Event}
    (returns : Returns machine result final events) (cached : Bool) :
    Returns (machine.caching cached) result (final.caching cached)
      (events.map (Event.caching cached)) := by
  obtain ⟨turns, advanced⟩ := returns
  refine ⟨turns, ?_⟩
  calc (start (machine.caching cached)).advance turns
      = ((start machine).caching cached).advance turns := by
        rw [start, start, Run.caching]
        simp [Machine.startedEvent, Machine.caching, Machine.reconfigure, Event.caching]
    _ = ((start machine).advance turns).caching cached := advance_caching _ cached turns
    _ = ⟨final.caching cached, events.map (Event.caching cached), some result⟩ := by
        rw [advanced]
        rfl

end Run

namespace Machine

variable {σ : Type} [Sink σ]

/-- However often a machine is called, its answers are the same with and without caching. -/
theorem Answers.caching {machine : Machine σ} {answers : List (Answer σ)}
    (given : machine.Answers answers) (cached : Bool) :
    (machine.caching cached).Answers (answers.map (Answer.caching cached)) := by
  induction given with
  | uncalled machine => exact .uncalled _
  | @called machine final result events later returns again ih =>
    have first : Answer.caching cached ⟨final.report result, events⟩ =
        ⟨(final.caching cached).report result, events.map (Event.caching cached)⟩ := rfl
    rw [List.map_cons, first]
    exact .called (returns.caching cached) ih

/-- The answers of a machine that caches its jumps and of one that scans for partners cannot be told
apart, but for the choice that the opening event of each call names. -/
theorem caching_unobservable (program : Program) (sink : σ) (config : Config) (words : Words)
    (observed : List (Answer σ)) :
    (∃ answers, (create program sink { config with cacheJumps := true } words).Answers answers ∧
        answers.map (Answer.caching false) = observed) ↔
      (∃ answers, (create program sink { config with cacheJumps := false } words).Answers answers ∧
        answers.map (Answer.caching false) = observed) := by
  have forget (cached : Bool) (answers : List (Answer σ)) :
      (answers.map (Answer.caching cached)).map (Answer.caching false) =
        answers.map (Answer.caching false) := by
    simp
  constructor
  · rintro ⟨answers, given, seen⟩
    exact ⟨answers.map (Answer.caching false), given.caching false, (forget false answers).trans seen⟩
  · rintro ⟨answers, given, seen⟩
    exact ⟨answers.map (Answer.caching true), given.caching true, (forget true answers).trans seen⟩

end Machine

end Crosswire
