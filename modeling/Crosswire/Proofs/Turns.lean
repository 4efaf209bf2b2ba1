/-
Module: Crosswire.Proofs.Turns
Purpose: What a turn does, and what follows for a run call. A turn finds one of four situations
  (`Machine.Moment`), each with an equation for the turn, so later proofs never open `turn` itself. A
  run call is then read without its log: the machine goes on for a number of turns (`after?`) and
  returns from the next one (`EndsAfter`); `returns_iff` says that this is what a run call does.
  Changing the configuration commutes with a turn as long as the step limit answers the same. The last
  section says what a caller sees of a machine that is called again and again.
Imports: Crosswire.Run, Crosswire.Proofs.BracketMatching
Main exports: Machine.Moment, Machine.moment, Machine.goesOn_frame, Machine.reconfigure,
  Machine.turn_reconfigure, Machine.after?, Machine.EndsAfter, Machine.returns_iff,
  Machine.EndsAfter.unique, Report, Answer, Machine.Answers, Machine.Calls, Machine.Reports,
  Machine.Calls.exists_endsAfter, Machine.calls_cons_iff
-/
import Crosswire.Run
import Crosswire.Proofs.BracketMatching

namespace Crosswire

/-- Executing an instruction where it stands does not depend on how partners are found. -/
theorem execute_ofProgram {program : Program} {position : Nat} {instruction : Instruction}
    (here : program.get? position = some instruction) (cached : Bool) (state : State) :
    execute instruction position program (Resolver.ofProgram program cached) state =
      execute instruction position program .scanning state := by
  rcases instruction.bracket_cases with rfl | rfl | plain
  · simp only [execute, takeJump, Resolver.resolve_loopStart here cached]
    rfl
  · simp only [execute, takeJump, Resolver.resolve_loopEnd here cached]
    rfl
  · cases instruction <;> simp_all [Instruction.isBracket, execute]

/-- Executing an instruction that is no bracket does not look at the program. -/
theorem execute_plain {instruction : Instruction} (plain : instruction.isBracket = false)
    (position : Nat) (program other : Program) (resolver another : Resolver) (state : State) :
    execute instruction position program resolver state =
      execute instruction position other another state := by
  cases instruction <;> simp_all [Instruction.isBracket, execute]

namespace Machine

variable {σ : Type}

/-- The same machine under another configuration. -/
def reconfigure (machine : Machine σ) (config : Config) : Machine σ :=
  { machine with
    config
    resolver := Resolver.ofProgram machine.program config.cacheJumps
    resolver_eq := rfl }

end Machine

namespace Turn

variable {σ : Type}

/-- The machine that a turn leaves behind. -/
def machine : Turn σ → Machine σ
  | .goesOn machine => machine
  | .returns _ machine => machine

/-- Reconfigure the machine that a turn leaves behind. -/
def reconfigure (config : Config) : Turn σ → Turn σ
  | .goesOn machine => .goesOn (machine.reconfigure config)
  | .returns result machine => .returns result (machine.reconfigure config)

end Turn

namespace Machine

variable {σ : Type}

/-! ### The four situations of a turn -/

/-- What a machine finds when it takes a turn. -/
inductive Moment (machine : Machine σ) : Prop where
  /-- There is no instruction left. -/
  | outside (outside : machine.program.get? machine.position = none)
  /-- There is an instruction, but no more may be executed. -/
  | limited {instruction : Instruction}
      (here : machine.program.get? machine.position = some instruction)
      (reached : machine.limitReached = true)
  /-- The instruction faults. -/
  | faults {instruction : Instruction} {fault : Fault} {state : State}
      (here : machine.program.get? machine.position = some instruction)
      (free : machine.limitReached = false)
      (executed : execute instruction machine.position machine.program machine.resolver
        machine.state = (.error fault, state))
  /-- The instruction is executed. -/
  | acts {instruction : Instruction} {effect : Effect} {state : State}
      (here : machine.program.get? machine.position = some instruction)
      (free : machine.limitReached = false)
      (executed : execute instruction machine.position machine.program machine.resolver
        machine.state = (.ok effect, state))

theorem moment (machine : Machine σ) : machine.Moment := by
  cases here : machine.program.get? machine.position with
  | none => exact .outside here
  | some instruction =>
    cases limit : machine.limitReached with
    | true => exact .limited here limit
    | false =>
      rcases executed : execute instruction machine.position machine.program machine.resolver
        machine.state with ⟨fault | effect, state⟩
      · exact .faults here limit executed
      · exact .acts here limit executed

variable [Sink σ]

section Equations

variable {machine : Machine σ} {instruction : Instruction} {state : State}

theorem turn_of_outside (outside : machine.program.get? machine.position = none) :
    machine.turn =
      ([.finished machine.steps .endOfProgram], .returns (.ok .endOfProgram) machine) := by
  simp only [turn, outside]

theorem turn_of_limited (here : machine.program.get? machine.position = some instruction)
    (reached : machine.limitReached = true) :
    machine.turn = ([.finished machine.steps .stepLimit], .returns (.ok .stepLimit) machine) := by
  simp only [turn, here, reached, if_true]

theorem turn_of_faults {fault : Fault}
    (here : machine.program.get? machine.position = some instruction)
    (free : machine.limitReached = false)
    (executed : execute instruction machine.position machine.program machine.resolver
      machine.state = (.error fault, state)) :
    machine.turn =
      (machine.stepEvents instruction ++ [.aborted machine.steps fault],
        .returns (.error (.faulted fault)) { machine with state }) := by
  simp only [turn, here, free, executed, Bool.false_eq_true, if_false]

theorem turn_of_acts {effect : Effect}
    (here : machine.program.get? machine.position = some instruction)
    (free : machine.limitReached = false)
    (executed : execute instruction machine.position machine.program machine.resolver
      machine.state = (.ok effect, state)) :
    machine.turn =
      (machine.stepEvents instruction ++
          (apply { machine with state, steps := machine.steps + 1 } effect).1,
        (apply { machine with state, steps := machine.steps + 1 } effect).2) := by
  simp only [turn, here, free, executed, Bool.false_eq_true, if_false]

end Equations

/-- Doing what an executed instruction asks for changes neither program nor configuration, and the
state and the step count are those that the execution left. -/
theorem apply_frame (machine : Machine σ) (effect : Effect) :
    (machine.apply effect).2.machine.program = machine.program ∧
      (machine.apply effect).2.machine.config = machine.config ∧
      (machine.apply effect).2.machine.state = machine.state ∧
      (machine.apply effect).2.machine.steps = machine.steps := by
  cases effect with
  | next => exact ⟨rfl, rfl, rfl, rfl⟩
  | jump target => exact ⟨rfl, rfl, rfl, rfl⟩
  | halt => exact ⟨rfl, rfl, rfl, rfl⟩
  | print value =>
    simp only [apply, print]
    split <;> exact ⟨rfl, rfl, rfl, rfl⟩

/-- A turn touches neither program nor configuration. -/
theorem turn_frame (machine : Machine σ) :
    machine.turn.2.machine.program = machine.program ∧
      machine.turn.2.machine.config = machine.config := by
  cases machine.moment with
  | outside outside =>
    rw [turn_of_outside outside]
    exact ⟨rfl, rfl⟩
  | limited here reached =>
    rw [turn_of_limited here reached]
    exact ⟨rfl, rfl⟩
  | faults here free executed =>
    rw [turn_of_faults here free executed]
    exact ⟨rfl, rfl⟩
  | @acts _ effect state here free executed =>
    rw [turn_of_acts here free executed]
    obtain ⟨program, config, _, _⟩ :=
      apply_frame { machine with state, steps := machine.steps + 1 } effect
    exact ⟨program, config⟩

/-- A turn that goes on has executed the instruction at the machine's position. -/
theorem goesOn_acts {machine next : Machine σ} (goes : machine.turn.2 = .goesOn next) :
    ∃ instruction effect state,
      machine.program.get? machine.position = some instruction ∧
      machine.limitReached = false ∧
      execute instruction machine.position machine.program machine.resolver machine.state =
        (.ok effect, state) ∧
      (apply { machine with state, steps := machine.steps + 1 } effect).2 = .goesOn next := by
  cases machine.moment with
  | outside outside =>
    rw [turn_of_outside outside] at goes
    cases goes
  | limited here reached =>
    rw [turn_of_limited here reached] at goes
    cases goes
  | faults here free executed =>
    rw [turn_of_faults here free executed] at goes
    cases goes
  | acts here free executed =>
    rw [turn_of_acts here free executed] at goes
    exact ⟨_, _, _, here, free, executed, goes⟩

/-- A turn that goes on counts one step and touches neither program nor configuration. -/
theorem goesOn_frame {machine next : Machine σ} (goes : machine.turn.2 = .goesOn next) :
    next.program = machine.program ∧ next.config = machine.config ∧
      next.steps = machine.steps + 1 := by
  obtain ⟨program, config⟩ := machine.turn_frame
  obtain ⟨_, effect, state, _, _, _, applied⟩ := goesOn_acts goes
  obtain ⟨_, _, _, steps⟩ := apply_frame { machine with state, steps := machine.steps + 1 } effect
  rw [goes] at program config
  rw [applied] at steps
  exact ⟨program, config, steps⟩

/-! ### Reconfiguring -/

theorem apply_reconfigure (machine : Machine σ) (config : Config) (effect : Effect) :
    (machine.reconfigure config).apply effect =
      ((machine.apply effect).1, (machine.apply effect).2.reconfigure config) := by
  cases effect with
  | next => rfl
  | jump target => rfl
  | halt => rfl
  | print value =>
    simp only [apply, print, reconfigure]
    rcases Sink.write (machine.renderer.render value machine.state.styled).1 machine.sink with
      ⟨failure | done, sink⟩ <;> rfl

/-- A turn does the same under another configuration that traces alike, if the step limit answers
alike. Which resolver the configuration asks for does not matter. -/
theorem turn_reconfigure (machine : Machine σ) {config : Config}
    (trace : config.trace = machine.config.trace)
    (limit : (machine.reconfigure config).limitReached = machine.limitReached) :
    (machine.reconfigure config).turn =
      (machine.turn.1, machine.turn.2.reconfigure config) := by
  have events (instruction : Instruction) :
      (machine.reconfigure config).stepEvents instruction = machine.stepEvents instruction := by
    simp only [stepEvents, reconfigure, trace]
  have resolved {instruction : Instruction}
      (here : machine.program.get? machine.position = some instruction) :
      execute instruction machine.position machine.program (machine.reconfigure config).resolver
          machine.state =
        execute instruction machine.position machine.program machine.resolver machine.state := by
    rw [machine.resolver_eq, (machine.reconfigure config).resolver_eq]
    rw [execute_ofProgram here]
    exact execute_ofProgram here _ _
  cases machine.moment with
  | outside outside =>
    rw [turn_of_outside outside]
    exact turn_of_outside outside
  | limited here reached =>
    rw [turn_of_limited here reached]
    exact turn_of_limited here (limit.trans reached)
  | faults here free executed =>
    rw [turn_of_faults here free executed, ← events]
    exact turn_of_faults here (limit.trans free)
      ((resolved here).trans executed)
  | @acts _ effect state here free executed =>
    rw [turn_of_acts here free executed, ← events]
    have applied := apply_reconfigure { machine with state, steps := machine.steps + 1 } config effect
    calc (machine.reconfigure config).turn
        = ((machine.reconfigure config).stepEvents _ ++
              (apply (reconfigure { machine with state, steps := machine.steps + 1 } config) effect).1,
            (apply (reconfigure { machine with state, steps := machine.steps + 1 } config) effect).2) :=
          turn_of_acts here (limit.trans free) ((resolved here).trans executed)
      _ = _ := by rw [applied]

/-! ### Going on for a number of turns -/

/-- The machine after a number of turns, if none of them returns. -/
def after? (machine : Machine σ) : Nat → Option (Machine σ)
  | 0 => some machine
  | turns + 1 =>
    match machine.turn.2 with
    | .goesOn next => next.after? turns
    | .returns _ _ => none

/-- The machine goes on for a number of turns, and the turn after these returns. -/
def EndsAfter (machine : Machine σ) (turns : Nat) (result : RunResult) (final : Machine σ) : Prop :=
  ∃ last, machine.after? turns = some last ∧ last.turn.2 = .returns result final

variable {machine next last final : Machine σ} {result : RunResult}

@[simp] theorem after?_zero (machine : Machine σ) : machine.after? 0 = some machine := rfl

theorem after?_succ_of_goesOn (goes : machine.turn.2 = .goesOn next) (turns : Nat) :
    machine.after? (turns + 1) = next.after? turns := by
  simp only [after?, goes]

theorem after?_succ_of_returns (returns : machine.turn.2 = .returns result final) (turns : Nat) :
    machine.after? (turns + 1) = none := by
  simp only [after?, returns]

theorem after?_one_of_goesOn (goes : machine.turn.2 = .goesOn next) : machine.after? 1 = some next :=
  after?_succ_of_goesOn goes 0

/-- Turns can be taken in portions. -/
theorem after?_add (machine : Machine σ) (first second : Nat) :
    machine.after? (first + second) = (machine.after? first).bind (·.after? second) := by
  induction first generalizing machine with
  | zero => simp
  | succ first ih =>
    rw [Nat.add_right_comm]
    cases turned : machine.turn.2 with
    | goesOn next => rw [after?_succ_of_goesOn turned, after?_succ_of_goesOn turned, ih]
    | returns result final =>
      rw [after?_succ_of_returns turned, after?_succ_of_returns turned]
      rfl

theorem after?_trans {first second : Nat} (reached : machine.after? first = some next)
    (onward : next.after? second = some last) : machine.after? (first + second) = some last := by
  rw [after?_add, reached]
  exact onward

/-- Turns that go on count one step each and touch neither program nor configuration. -/
theorem after?_frame {turns : Nat} (reached : machine.after? turns = some last) :
    last.program = machine.program ∧ last.config = machine.config ∧
      last.steps = machine.steps + turns := by
  induction turns generalizing machine with
  | zero =>
    cases reached
    exact ⟨rfl, rfl, rfl⟩
  | succ turns ih =>
    cases turned : machine.turn.2 with
    | returns result final =>
      rw [after?_succ_of_returns turned] at reached
      cases reached
    | goesOn next =>
      rw [after?_succ_of_goesOn turned] at reached
      obtain ⟨program, config, steps⟩ := ih reached
      obtain ⟨nextProgram, nextConfig, nextSteps⟩ := goesOn_frame turned
      refine ⟨program.trans nextProgram, config.trans nextConfig, ?_⟩
      rw [steps, nextSteps]
      omega

namespace EndsAfter

variable {turns : Nat}

theorem of_returns (returns : machine.turn.2 = .returns result final) :
    machine.EndsAfter 0 result final :=
  ⟨machine, rfl, returns⟩

/-- A call does not change the configuration. -/
theorem config_eq (ends : machine.EndsAfter turns result final) : final.config = machine.config := by
  obtain ⟨last, reached, returns⟩ := ends
  have turned := last.turn_frame.2
  rw [returns] at turned
  exact turned.trans (after?_frame reached).2.1

/-- Turns taken before an ending run lengthen it. -/
theorem prepend {first : Nat} (reached : machine.after? first = some next)
    (ends : next.EndsAfter turns result final) : machine.EndsAfter (first + turns) result final := by
  obtain ⟨last, lastReached, returns⟩ := ends
  exact ⟨last, after?_trans reached lastReached, returns⟩

/-- What a machine goes on to comes before its end. -/
theorem remaining {first : Nat} (ends : machine.EndsAfter turns result final)
    (reached : machine.after? first = some next) :
    ∃ rest, turns = first + rest ∧ next.EndsAfter rest result final := by
  obtain ⟨last, lastReached, returns⟩ := ends
  rcases Nat.lt_or_ge turns first with late | early
  · -- The machine would have gone on past the turn that returned.
    obtain ⟨extra, rfl⟩ := Nat.exists_eq_add_of_lt late
    rw [Nat.add_assoc, after?_add, lastReached, Option.bind_some,
      after?_succ_of_returns returns] at reached
    cases reached
  · obtain ⟨rest, rfl⟩ := Nat.exists_eq_add_of_le early
    rw [after?_add, reached] at lastReached
    exact ⟨rest, rfl, last, lastReached, returns⟩

/-- A machine ends in one way. -/
theorem unique {others : Nat} {other : RunResult} {another : Machine σ}
    (ends : machine.EndsAfter turns result final) (too : machine.EndsAfter others other another) :
    turns = others ∧ result = other ∧ final = another := by
  obtain ⟨last, reached, returns⟩ := ends
  obtain ⟨rest, rfl, onward⟩ := too.remaining reached
  obtain ⟨end', reached', returns'⟩ := onward
  cases rest with
  | zero =>
    cases reached'
    rw [returns] at returns'
    cases returns'
    exact ⟨rfl, rfl, rfl⟩
  | succ rest =>
    rw [after?_succ_of_returns returns] at reached'
    cases reached'

end EndsAfter

/-! ### Run calls without their log -/

theorem step_of_goesOn (goes : machine.turn.2 = .goesOn next) (earlier : Array Event) :
    (Run.mk machine earlier none).step = ⟨next, earlier ++ machine.turn.1, none⟩ := by
  have turned : machine.turn = (machine.turn.1, .goesOn next) := Prod.ext rfl goes
  simp only [Run.step]
  rw [turned]

theorem step_of_returns (returns : machine.turn.2 = .returns result final)
    (earlier : Array Event) :
    (Run.mk machine earlier none).step = ⟨final, earlier ++ machine.turn.1, some result⟩ := by
  have turned : machine.turn = (machine.turn.1, .returns result final) := Prod.ext rfl returns
  simp only [Run.step]
  rw [turned]

/-- The run of a machine that ends returns, whatever was logged before. -/
theorem EndsAfter.advance {turns : Nat} (ends : machine.EndsAfter turns result final)
    (earlier : Array Event) :
    ∃ events, (Run.mk machine earlier none).advance (turns + 1) = ⟨final, events, some result⟩ := by
  obtain ⟨last, reached, returns⟩ := ends
  induction turns generalizing machine earlier with
  | zero =>
    cases reached
    refine ⟨earlier ++ last.turn.1, ?_⟩
    rw [Run.advance_succ, Run.advance_zero, step_of_returns returns]
  | succ turns ih =>
    cases turned : machine.turn.2 with
    | returns result final =>
      rw [after?_succ_of_returns turned] at reached
      cases reached
    | goesOn next =>
      rw [after?_succ_of_goesOn turned] at reached
      rw [Run.advance_succ, step_of_goesOn turned]
      exact ih (earlier ++ machine.turn.1) reached

/-- A run that has returned after some turns ended before. -/
theorem endsAfter_of_advance {turns : Nat} {earlier events : Array Event}
    (advanced : (Run.mk machine earlier none).advance turns = ⟨final, events, some result⟩) :
    ∃ before, machine.EndsAfter before result final := by
  induction turns generalizing machine earlier with
  | zero => cases advanced
  | succ turns ih =>
    rw [Run.advance_succ] at advanced
    cases turned : machine.turn.2 with
    | returns other another =>
      rw [step_of_returns turned, Run.advance_of_result rfl] at advanced
      cases advanced
      exact ⟨0, .of_returns turned⟩
    | goesOn next =>
      rw [step_of_goesOn turned] at advanced
      obtain ⟨before, ends⟩ := ih advanced
      exact ⟨1 + before, ends.prepend (after?_one_of_goesOn turned)⟩

/-- A run call returns exactly if the machine ends, with the same result and the same machine. -/
theorem returns_iff :
    (∃ events, Run.Returns machine result final events) ↔
      ∃ turns, machine.EndsAfter turns result final := by
  constructor
  · rintro ⟨events, turns, advanced⟩
    exact endsAfter_of_advance advanced
  · rintro ⟨turns, ends⟩
    obtain ⟨events, advanced⟩ := ends.advance #[machine.startedEvent]
    exact ⟨events, turns + 1, advanced⟩

end Machine

/-! ### Successive calls -/

/-- What a caller sees of a machine once a call has returned. -/
structure Report (σ : Type) where
  result : RunResult
  state : State
  /-- The position of the next instruction. -/
  position : Nat
  steps : Nat
  sink : σ

/-- A report together with the log of the call. -/
structure Answer (σ : Type) extends Report σ where
  events : Array Event

namespace Machine

variable {σ : Type}

/-- What is seen of a machine that a call has left with a result. -/
def report (machine : Machine σ) (result : RunResult) : Report σ :=
  ⟨result, machine.state, machine.position, machine.steps, machine.sink⟩

variable [Sink σ]

/-- The machine, called again and again from where it stands, gives these answers, the first call's
first. A list can be given only as far as the calls return. -/
inductive Answers : Machine σ → List (Answer σ) → Prop where
  | uncalled (machine : Machine σ) : Answers machine []
  | called {machine final : Machine σ} {result : RunResult} {events : Array Event}
      {later : List (Answer σ)}
      (returns : Run.Returns machine result final events) (again : Answers final later) :
      Answers machine (⟨final.report result, events⟩ :: later)

/-- The machine, called again and again, shows these reports. -/
def Calls (machine : Machine σ) (reports : List (Report σ)) : Prop :=
  ∃ answers, machine.Answers answers ∧ answers.map Answer.toReport = reports

namespace Calls

variable {machine next final : Machine σ} {result : RunResult} {reports : List (Report σ)}

theorem nil (machine : Machine σ) : machine.Calls [] :=
  ⟨[], .uncalled machine, rfl⟩

theorem cons {turns : Nat} (ends : machine.EndsAfter turns result final)
    (later : final.Calls reports) : machine.Calls (final.report result :: reports) := by
  obtain ⟨answers, given, seen⟩ := later
  obtain ⟨events, returns⟩ := returns_iff.2 ⟨turns, ends⟩
  refine ⟨⟨final.report result, events⟩ :: answers, .called returns given, ?_⟩
  rw [List.map_cons, seen]

/-- The first of several reports is of a call that returned, and the others are of the machine that it
left. -/
theorem exists_endsAfter {report : Report σ} (calls : machine.Calls (report :: reports)) :
    ∃ turns result final, machine.EndsAfter turns result final ∧ report = final.report result ∧
      final.Calls reports := by
  obtain ⟨answers, given, seen⟩ := calls
  cases given with
  | uncalled => cases seen
  | called returns again =>
    obtain ⟨turns, ends⟩ := returns_iff.1 ⟨_, returns⟩
    cases seen
    exact ⟨turns, _, _, ends, rfl, _, again, rfl⟩

/-- A turn that goes on is part of the first call. -/
theorem of_goesOn (goes : machine.turn.2 = .goesOn next) (some : reports ≠ [])
    (calls : next.Calls reports) : machine.Calls reports := by
  obtain ⟨answers, given, rfl⟩ := calls
  cases given with
  | uncalled => exact absurd rfl some
  | called returns again =>
    obtain ⟨turns, ends⟩ := returns_iff.1 ⟨_, returns⟩
    exact cons (ends.prepend (after?_one_of_goesOn goes)) ⟨_, again, rfl⟩

end Calls

theorem calls_cons_iff {machine final : Machine σ} {turns : Nat} {result : RunResult}
    (ends : machine.EndsAfter turns result final) {report : Report σ} {reports : List (Report σ)} :
    machine.Calls (report :: reports) ↔ report = final.report result ∧ final.Calls reports := by
  constructor
  · intro calls
    obtain ⟨others, other, another, endsToo, seen, onward⟩ := calls.exists_endsAfter
    obtain ⟨-, rfl, rfl⟩ := ends.unique endsToo
    exact ⟨seen, onward⟩
  · rintro ⟨rfl, calls⟩
    exact .cons ends calls

/-- A run call of the machine returns, and this is what is seen of it. -/
def Reports (machine : Machine σ) (report : Report σ) : Prop :=
  ∃ final events, Run.Returns machine report.result final events ∧
    final.report report.result = report

theorem reports_of_endsAfter {machine final : Machine σ} {turns : Nat} {result : RunResult}
    (ends : machine.EndsAfter turns result final) : machine.Reports (final.report result) := by
  obtain ⟨events, returns⟩ := returns_iff.2 ⟨turns, ends⟩
  exact ⟨final, events, returns, rfl⟩

namespace Reports

variable {machine : Machine σ} {report other : Report σ}

theorem endsAfter (reports : machine.Reports report) :
    ∃ turns final, machine.EndsAfter turns report.result final ∧
      final.report report.result = report := by
  obtain ⟨final, events, returns, same⟩ := reports
  obtain ⟨turns, ends⟩ := returns_iff.1 ⟨events, returns⟩
  exact ⟨turns, final, ends, same⟩

theorem unique (reports : machine.Reports report) (too : machine.Reports other) :
    report = other := by
  obtain ⟨turns, final, ends, same⟩ := reports.endsAfter
  obtain ⟨others, another, endsToo, sameToo⟩ := too.endsAfter
  obtain ⟨-, result, rfl⟩ := ends.unique endsToo
  rw [← same, ← sameToo, result]

end Reports

end Machine

end Crosswire
