/-
Module: Crosswire.Proofs.LogReplay
Purpose: The log of a run call replays it. With tracing on, every executed instruction is logged before it
  is executed, with its number, position and accumulator, and a jump is logged behind it; so each entry
  says where the next one stands. A call that comes to rest and one that faults close their log; an
  output failure does not. Without tracing the log is the same but for the steps.
Imports: Crosswire.Proofs.Printing, Crosswire.Proofs.Turns
Main exports: Entry, Entry.events, Entry.next, Machine.Replays, Closing, Machine.turn_untraced,
  Run.advance_untraced, Machine.exists_entries_of_advance, Machine.log_replays_run
-/
import Crosswire.Proofs.Printing
import Crosswire.Proofs.Turns

namespace Crosswire

/-! ### Entries of a log -/

/-- A logged step: an instruction about to be executed, and where it jumped to if it did. -/
structure Entry where
  number : Nat
  position : Nat
  instruction : Instruction
  accumulator : Value
  target : Option Nat
deriving DecidableEq, Repr

namespace Entry

/-- The event of the step itself. -/
def stepEvent (entry : Entry) : Event :=
  .step entry.number entry.position entry.instruction entry.accumulator

/-- The events of an entry: the step, and the jump from where it stands if it took one. -/
def events (entry : Entry) : List Event :=
  entry.stepEvent :: entry.target.toList.map (.jumped entry.position)

/-- Where an entry leads. -/
def next (entry : Entry) : Nat :=
  entry.target.getD (entry.position + 1)

end Entry

/-- How the log of a call can end, if its steps have counted up to `logged`: with which result, after how
many steps, and with which events. -/
inductive Closing (logged : Nat) : Option RunResult → Nat → List Event → Prop where
  /-- The call has not returned. -/
  | underway : Closing logged none logged []
  /-- The program came to rest. -/
  | finished (halt : Halt) : Closing logged (some (.ok halt)) logged [.finished logged halt]
  /-- The last logged step faulted, and was not counted. -/
  | aborted (fault : Fault) {steps : Nat} (uncounted : logged = steps + 1) :
      Closing logged (some (.error (.faulted fault))) steps [.aborted steps fault]
  /-- The last logged step is a print that the sink did not take. -/
  | refused (failure : OutputFailure) :
      Closing logged (some (.error (.output failure))) logged []

namespace Machine

variable {σ : Type}

/-- The entry of a machine that is about to execute an instruction. -/
def entry (machine : Machine σ) (instruction : Instruction) (target : Option Nat) : Entry :=
  ⟨machine.steps, machine.position, instruction, machine.state.accumulator, target⟩

theorem stepEvents_of_traced {machine : Machine σ} (traced : machine.config.trace = true)
    (instruction : Instruction) (target : Option Nat) :
    machine.stepEvents instruction = [(machine.entry instruction target).stepEvent] := by
  rw [stepEvents, if_pos traced]
  rfl

variable [Sink σ]

/-- The entries are those of a machine that goes on from here. -/
structure Replays (machine : Machine σ) (entries : List Entry) : Prop where
  /-- Steps are numbered from the machine's step count on. -/
  number : ∀ index entry, entries[index]? = some entry → entry.number = machine.steps + index
  /-- The first entry stands where the machine stands. -/
  first : ∀ entry, entries[0]? = some entry → entry.position = machine.position
  /-- Every other entry stands where the one before it leads. -/
  onward : ∀ index entry later, entries[index]? = some entry → entries[index + 1]? = some later →
    later.position = entry.next
  /-- The instruction of an entry is the one of the program at its position. -/
  instruction : ∀ entry ∈ entries, machine.program.get? entry.position = some entry.instruction
  /-- Each entry was made by the machine after as many turns as there are entries before it. -/
  met : ∀ index entry, entries[index]? = some entry → ∃ here, machine.after? index = some here ∧
    here.position = entry.position ∧ here.state.accumulator = entry.accumulator

namespace Replays

variable {machine next : Machine σ} {instruction : Instruction}

theorem nil (machine : Machine σ) : machine.Replays [] := by
  constructor <;> simp

theorem single (here : machine.program.get? machine.position = some instruction)
    (target : Option Nat) : machine.Replays [machine.entry instruction target] := by
  constructor
  · intro index entry listed
    cases index with
    | zero =>
      cases listed
      rfl
    | succ index => cases listed
  · intro entry listed
    cases listed
    rfl
  · intro index entry later _ listed
    cases listed
  · intro entry member
    rw [List.mem_singleton.1 member]
    exact here
  · intro index entry listed
    cases index with
    | zero =>
      cases listed
      exact ⟨machine, rfl, rfl, rfl⟩
    | succ index => cases listed

/-- An entry in front of those of the machine that it leads to. -/
theorem cons {target : Option Nat} {entries : List Entry}
    (here : machine.program.get? machine.position = some instruction)
    (goes : machine.turn.2 = .goesOn next)
    (leads : next.position = (machine.entry instruction target).next)
    (replays : next.Replays entries) :
    machine.Replays (machine.entry instruction target :: entries) := by
  obtain ⟨program, -, steps⟩ := goesOn_frame goes
  constructor
  · intro index entry listed
    cases index with
    | zero =>
      cases listed
      rfl
    | succ index =>
      rw [replays.number index entry listed, steps]
      omega
  · intro entry listed
    cases listed
    rfl
  · intro index entry later listed behind
    cases index with
    | zero =>
      cases listed
      rw [replays.first later behind, leads]
    | succ index => exact replays.onward index entry later listed behind
  · intro entry member
    rcases List.mem_cons.1 member with rfl | behind
    · exact here
    · rw [← program]
      exact replays.instruction entry behind
  · intro index entry listed
    cases index with
    | zero =>
      cases listed
      exact ⟨machine, rfl, rfl, rfl⟩
    | succ index =>
      rw [after?_succ_of_goesOn goes]
      exact replays.met index entry listed

end Replays

/-! ### The log of one turn -/

variable {machine next final : Machine σ} {result : RunResult}

/-- A print that is taken moves the machine on. -/
theorem position_of_print {value : Value} (goes : machine.print value = .goesOn next) :
    next.position = machine.position + 1 := by
  simp only [print] at goes
  split at goes
  · cases goes
    rfl
  · cases goes

/-- A turn that goes on logs one entry, which leads to the machine's next position. -/
theorem exists_entry_of_goesOn (traced : machine.config.trace = true)
    (goes : machine.turn.2 = .goesOn next) :
    ∃ instruction target, machine.program.get? machine.position = some instruction ∧
      machine.turn.1 = (machine.entry instruction target).events ∧
      next.position = (machine.entry instruction target).next := by
  obtain ⟨instruction, effect, state, here, free, executed, applied⟩ := goesOn_acts goes
  rw [turn_of_acts here free executed]
  cases effect with
  | next =>
    cases applied
    rw [stepEvents_of_traced traced instruction none]
    exact ⟨instruction, none, here, rfl, rfl⟩
  | jump target =>
    cases applied
    rw [stepEvents_of_traced traced instruction (some target)]
    exact ⟨instruction, some target, here, rfl, rfl⟩
  | print value =>
    rw [stepEvents_of_traced traced instruction none]
    have printed : print { machine with state, steps := machine.steps + 1 } value = .goesOn next :=
      applied
    have moved := position_of_print printed
    exact ⟨instruction, none, here, rfl, moved⟩
  | halt => cases applied

/-- A turn that returns logs an entry if it came to execute an instruction, and then its result. -/
theorem exists_entries_of_returns (traced : machine.config.trace = true)
    (returns : machine.turn.2 = .returns result final) :
    ∃ entries closing, machine.turn.1 = entries.flatMap Entry.events ++ closing ∧
      machine.Replays entries ∧
      Closing (machine.steps + entries.length) (some result) final.steps closing := by
  cases machine.moment with
  | outside outside =>
    rw [turn_of_outside outside] at returns ⊢
    cases returns
    exact ⟨[], _, rfl, .nil _, .finished _⟩
  | limited here reached =>
    rw [turn_of_limited here reached] at returns ⊢
    cases returns
    exact ⟨[], _, rfl, .nil _, .finished _⟩
  | @faults instruction fault state here free executed =>
    rw [turn_of_faults here free executed] at returns ⊢
    cases returns
    rw [stepEvents_of_traced traced instruction none]
    exact ⟨[machine.entry instruction none], _, rfl, .single here none, .aborted fault rfl⟩
  | @acts instruction effect state here free executed =>
    rw [turn_of_acts here free executed] at returns ⊢
    rw [stepEvents_of_traced traced instruction none]
    refine ⟨[machine.entry instruction none], _, rfl, .single here none, ?_⟩
    cases effect with
    | next => cases returns
    | jump target => cases returns
    | halt =>
      cases returns
      exact .finished _
    | print value =>
      have printed : print { machine with state, steps := machine.steps + 1 } value =
          .returns result final := returns
      simp only [print] at printed
      split at printed
      · cases printed
      · cases printed
        exact .refused _

/-! ### The log of a run call -/

/-- Whatever a call has logged so far are the entries of a machine that goes on, and how it returned. -/
theorem exists_entries_of_advance (traced : machine.config.trace = true) (earlier : Array Event)
    (turns : Nat) :
    ∃ entries closing,
      ((Run.mk machine earlier none).advance turns).events.toList =
        earlier.toList ++ entries.flatMap Entry.events ++ closing ∧
      machine.Replays entries ∧
      Closing (machine.steps + entries.length) ((Run.mk machine earlier none).advance turns).result
        ((Run.mk machine earlier none).advance turns).machine.steps closing := by
  -- Entries are put in front, so that the rest is the log of the machine that the first turn leads to.
  induction turns generalizing machine earlier with
  | zero => exact ⟨[], [], by simp, .nil machine, .underway⟩
  | succ turns ih =>
    rw [Run.advance_succ]
    cases turned : machine.turn.2 with
    | goesOn next =>
      obtain ⟨-, config, steps⟩ := goesOn_frame turned
      obtain ⟨instruction, target, here, logged, leads⟩ := exists_entry_of_goesOn traced turned
      have tracedNext : next.config.trace = true := by
        rw [config]
        exact traced
      obtain ⟨entries, closing, events, replays, closes⟩ :=
        ih tracedNext (earlier ++ machine.turn.1)
      rw [step_of_goesOn turned]
      refine ⟨machine.entry instruction target :: entries, closing, ?_, .cons here turned leads replays, ?_⟩
      · rw [events, Array.toList_appendList, logged, List.flatMap_cons]
        simp only [List.append_assoc]
      · rw [steps, Nat.add_right_comm] at closes
        exact closes
    | returns result final =>
      obtain ⟨entries, closing, logged, replays, closes⟩ := exists_entries_of_returns traced turned
      rw [step_of_returns turned, Run.advance_of_result rfl]
      refine ⟨entries, closing, ?_, replays, closes⟩
      rw [Array.toList_appendList, logged, List.append_assoc]

end Machine

/-! ### Without tracing -/

/-- Whether the event is of a step. -/
def Event.isStep : Event → Bool
  | step .. => true
  | _ => false

namespace Machine

variable {σ : Type}

/-- The same machine without tracing. -/
def untraced (machine : Machine σ) : Machine σ :=
  machine.reconfigure { machine.config with trace := false }

variable [Sink σ]

/-- What an executed instruction asks for is logged without tracing too. -/
theorem filter_apply_events (machine : Machine σ) (effect : Effect) :
    (machine.apply effect).1.filter (!·.isStep) = (machine.apply effect).1 := by
  cases effect <;> rfl

/-- Without tracing a turn does the same, and logs no step. -/
theorem turn_untraced (machine : Machine σ) :
    machine.untraced.turn =
      (machine.turn.1.filter (!·.isStep),
        machine.turn.2.reconfigure { machine.config with trace := false }) := by
  have silent (instruction : Instruction) :
      (machine.stepEvents instruction).filter (!·.isStep) = [] := by
    unfold stepEvents
    split <;> rfl
  have resolver : machine.untraced.resolver = machine.resolver := machine.resolver_eq.symm
  cases machine.moment with
  | outside outside =>
    rw [turn_of_outside outside]
    exact turn_of_outside outside
  | limited here reached =>
    rw [turn_of_limited here reached]
    exact turn_of_limited here reached
  | @faults instruction fault state here free executed =>
    rw [turn_of_faults here free executed, List.filter_append, silent]
    rw [← resolver] at executed
    exact turn_of_faults here free executed
  | @acts instruction effect state here free executed =>
    rw [turn_of_acts here free executed, List.filter_append, silent, filter_apply_events]
    rw [← resolver] at executed
    have applied := apply_reconfigure { machine with state, steps := machine.steps + 1 }
      { machine.config with trace := false } effect
    calc machine.untraced.turn
        = ([] ++ (apply (untraced { machine with state, steps := machine.steps + 1 }) effect).1,
            (apply (untraced { machine with state, steps := machine.steps + 1 }) effect).2) :=
          turn_of_acts here free executed
      _ = _ := by
        rw [untraced, applied]

theorem goesOn_untraced {machine next : Machine σ} (goes : machine.turn.2 = .goesOn next) :
    machine.untraced.turn.2 = .goesOn next.untraced := by
  obtain ⟨-, config, -⟩ := goesOn_frame goes
  rw [turn_untraced, goes, untraced, config]
  rfl

theorem returns_untraced {machine final : Machine σ} {result : RunResult}
    (returns : machine.turn.2 = .returns result final) :
    machine.untraced.turn.2 = .returns result final.untraced := by
  have config := (EndsAfter.of_returns returns).config_eq
  rw [turn_untraced, returns, untraced, config]
  rfl

end Machine

namespace Run

variable {σ : Type}

/-- A run call as a machine makes it without tracing. -/
def untraced (run : Run σ) : Run σ :=
  ⟨run.machine.untraced, run.events.filter (!·.isStep), run.result⟩

variable [Sink σ]

theorem step_untraced (run : Run σ) : run.untraced.step = run.step.untraced := by
  obtain ⟨machine, earlier, _ | result⟩ := run
  · have log : (earlier ++ machine.turn.1).filter (!·.isStep) =
        earlier.filter (!·.isStep) ++ machine.untraced.turn.1 := by
      apply Array.toList_inj.1
      simp [machine.turn_untraced]
    cases turned : machine.turn.2 with
    | goesOn next =>
      rw [Machine.step_of_goesOn turned]
      simp only [untraced, log]
      exact Machine.step_of_goesOn (Machine.goesOn_untraced turned) _
    | returns result final =>
      rw [Machine.step_of_returns turned]
      simp only [untraced, log]
      exact Machine.step_of_returns (Machine.returns_untraced turned) _
  · rfl

/-- Any number of turns of a run are the same without tracing, and log the same but for the steps. -/
theorem advance_untraced (run : Run σ) (turns : Nat) :
    run.untraced.advance turns = (run.advance turns).untraced := by
  induction turns generalizing run with
  | zero => rfl
  | succ turns ih => rw [advance_succ, advance_succ, step_untraced, ih]

omit [Sink σ] in
theorem start_untraced (machine : Machine σ) : start machine.untraced = (start machine).untraced := by
  have opening : #[machine.startedEvent].filter (!·.isStep) = #[machine.startedEvent] := by
    simp [Machine.startedEvent, Event.isStep]
  simp only [start, untraced, opening]
  rfl

end Run

namespace Machine

variable {σ : Type} [Sink σ]

/-- The log of a call, as far as the call has come, is made of its opening, of the entries of the steps
taken, and of how it returned. Without tracing it is the same without the steps. -/
theorem log_replays_run (machine : Machine σ) (traced : machine.config.trace = true) (turns : Nat) :
    let run := (Run.start machine).advance turns
    (∃ (entries : List Entry) (closing : List Event),
      run.events.toList = machine.startedEvent :: entries.flatMap Entry.events ++ closing ∧
      machine.Replays entries ∧
      (∀ entry ∈ entries, ∀ instruction, machine.program.get? entry.position = some instruction →
        ("instruction", .word instruction.mnemonic) ∈ entry.stepEvent.fields) ∧
      Closing (machine.steps + entries.length) run.result run.machine.steps closing) ∧
    let quiet := (Run.start machine.untraced).advance turns
    quiet.events.toList = run.events.toList.filter (!·.isStep) ∧
      quiet.result = run.result ∧ quiet.machine = run.machine.untraced := by
  intro run
  refine ⟨?_, ?_⟩
  · obtain ⟨entries, closing, events, replays, closes⟩ :=
      exists_entries_of_advance traced #[machine.startedEvent] turns
    refine ⟨entries, closing, events, replays, ?_, closes⟩
    intro entry member instruction here
    rw [replays.instruction entry member] at here
    cases here
    simp [Entry.stepEvent, Event.fields]
  · intro quiet
    have same : quiet = run.untraced := by
      rw [← Run.advance_untraced, ← Run.start_untraced]
    rw [same]
    refine ⟨?_, rfl, rfl⟩
    simp [Run.untraced]

/-- The program `-(+)` faults in its third turn, and its log says so. -/
theorem log_replays_run_faulting :
    let machine := create ⟨[.decrement, .loopStart, .add, .loopEnd], rfl⟩ Captured.empty
      { trace := true } (.cyclic [])
    let run := (Run.start machine).advance 3
    run.result = some (.error (.faulted (.stackUnderflow 2 .inner))) ∧
      ∃ entries closing,
        run.events.toList = machine.startedEvent :: entries.flatMap Entry.events ++ closing ∧
        machine.Replays entries ∧
        Closing (machine.steps + entries.length) run.result run.machine.steps closing := by
  intro machine run
  obtain ⟨⟨entries, closing, events, replays, -, closes⟩, -⟩ := log_replays_run machine rfl 3
  exact ⟨rfl, entries, closing, events, replays, closes⟩

end Machine

end Crosswire
