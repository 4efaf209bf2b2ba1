/-
Module: Crosswire.Run
Purpose: Run calls. A run call takes turns until one of them returns, and collects the log on the way.
  A program need not halt, so a run is advanced by a number of turns, and `advance` does nothing to a run
  that has returned. A machine that returned can be run again from where it stands.
Imports: Crosswire.Machine
Main exports: Run, Run.start, Run.step, Run.advance, Run.Returns
-/
import Crosswire.Machine

namespace Crosswire

/-- A run call in progress, or one that has returned. -/
structure Run (σ : Type) where
  machine : Machine σ
  /-- The log of this call, oldest event first. -/
  events : Array Event
  /-- What the call returned, once it has. -/
  result : Option RunResult

namespace Run

variable {σ : Type}

/-- Call a machine to run. -/
def start (machine : Machine σ) : Run σ :=
  ⟨machine, #[machine.startedEvent], none⟩

variable [Sink σ]

/-- Take one turn, unless the call has returned. -/
def step (run : Run σ) : Run σ :=
  match run.result with
  | some _ => run
  | none =>
    match run.machine.turn with
    | (events, .goesOn machine) => ⟨machine, run.events ++ events, none⟩
    | (events, .returns result machine) => ⟨machine, run.events ++ events, some result⟩

/-- Take a number of turns, or fewer if the call returns before. -/
def advance (run : Run σ) : Nat → Run σ
  | 0 => run
  | turns + 1 =>
    match run.result with
    | some _ => run
    | none => run.step.advance turns

/-- The machine, run from where it stands, returns `result` after finitely many turns, with the log
`events`, and is left as `after`. -/
def Returns (machine : Machine σ) (result : RunResult) (after : Machine σ) (events : Array Event) :
    Prop :=
  ∃ turns, (start machine).advance turns = ⟨after, events, some result⟩

/-! ### Advancing -/

/-- A run that has returned stays as it is. -/
@[simp] theorem step_of_result {run : Run σ} {result : RunResult} (returned : run.result = some result) :
    run.step = run := by
  simp [step, returned]

/-- A run that has returned is not advanced. -/
@[simp] theorem advance_of_result {run : Run σ} {result : RunResult}
    (returned : run.result = some result) (turns : Nat) : run.advance turns = run := by
  cases turns <;> simp [advance, returned]

@[simp] theorem advance_zero (run : Run σ) : run.advance 0 = run := rfl

/-- The first turn of an advance can be taken apart. -/
theorem advance_succ (run : Run σ) (turns : Nat) :
    run.advance (turns + 1) = run.step.advance turns := by
  cases returned : run.result with
  | none => simp [advance, returned]
  | some result => simp [returned]

end Run

/-! ### Running instructions directly -/

/-- A machine that runs a list of instructions into a capturing sink, if the list is a program. -/
def Machine.capturing (instructions : List Instruction) (config : Config) (words : Words) :
    Except RunError (Machine Captured) :=
  match Program.ofInstructions instructions with
  | .ok program => .ok (Machine.create program Captured.empty config words)
  | .error mismatch => .error (.malformed mismatch)

end Crosswire
