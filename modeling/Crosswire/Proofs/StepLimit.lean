/-
Module: Crosswire.Proofs.StepLimit
Purpose: A step limit cuts a run and changes nothing else. Below its limit a machine takes the turns of
  the machine without one, so the two part only when the limit is reached inside the program. From
  that follow when a limited run is cut, that a run that is not cut is the unlimited run, and that one
  more step of allowance is one more instruction.
Imports: Crosswire.Proofs.Printing, Crosswire.Proofs.Turns
Main exports: Machine.limiting, Machine.after?_limiting, Machine.Reports.cut_or_uncut, Report.OneMore,
  Machine.step_limit_cuts
-/
import Crosswire.Proofs.Printing
import Crosswire.Proofs.Turns

namespace Crosswire

namespace Machine

variable {σ : Type}

/-- The same machine with another step limit. -/
def limiting (machine : Machine σ) (limit : Option Nat) : Machine σ :=
  machine.reconfigure { machine.config with maxSteps := limit }

variable [Sink σ] {machine next last final : Machine σ} {result : RunResult} {limit : Nat}

/-! ### Below the limit -/

omit [Sink σ] in
theorem limitReached_limiting (machine : Machine σ) (limit : Nat) :
    (machine.limiting (some limit)).limitReached = decide (limit ≤ machine.steps) := rfl

theorem turn_limiting (unlimited : machine.config.maxSteps = none) (below : machine.steps < limit) :
    (machine.limiting (some limit)).turn.2 =
      machine.turn.2.reconfigure { machine.config with maxSteps := some limit } := by
  have free : machine.limitReached = false := by
    simp only [limitReached, unlimited]
  have freeToo : (machine.limiting (some limit)).limitReached = false := by
    rw [limitReached_limiting, decide_eq_false_iff_not]
    omega
  have turned : (machine.limiting (some limit)).turn = (machine.turn.1, _) :=
    machine.turn_reconfigure rfl (freeToo.trans free.symm)
  rw [turned]

theorem goesOn_limiting (unlimited : machine.config.maxSteps = none)
    (below : machine.steps < limit) (goes : machine.turn.2 = .goesOn next) :
    (machine.limiting (some limit)).turn.2 = .goesOn (next.limiting (some limit)) := by
  obtain ⟨-, config, -⟩ := goesOn_frame goes
  rw [turn_limiting unlimited below, goes, limiting, config]
  rfl

theorem returns_limiting (unlimited : machine.config.maxSteps = none)
    (below : machine.steps < limit) (returns : machine.turn.2 = .returns result final) :
    (machine.limiting (some limit)).turn.2 = .returns result (final.limiting (some limit)) := by
  have config := machine.turn_frame.2
  rw [returns] at config
  rw [turn_limiting unlimited below, returns, limiting, show final.config = machine.config from config]
  rfl

/-- As long as the limit is not passed, the limited machine keeps step with the unlimited one. -/
theorem after?_limiting (unlimited : machine.config.maxSteps = none) {turns : Nat}
    (below : machine.steps + turns ≤ limit) (reached : machine.after? turns = some last) :
    (machine.limiting (some limit)).after? turns = some (last.limiting (some limit)) := by
  induction turns generalizing machine with
  | zero =>
    cases reached
    rfl
  | succ turns ih =>
    cases turned : machine.turn.2 with
    | returns result final =>
      rw [after?_succ_of_returns turned] at reached
      cases reached
    | goesOn next =>
      obtain ⟨-, config, steps⟩ := goesOn_frame turned
      rw [after?_succ_of_goesOn turned] at reached
      rw [after?_succ_of_goesOn (goesOn_limiting unlimited (by omega) turned)]
      exact ih (config ▸ unlimited) (by omega) reached

/-- A run that ends before the limit ends in the same way with the limit. -/
theorem EndsAfter.limiting (unlimited : machine.config.maxSteps = none) {turns : Nat}
    (below : machine.steps + turns < limit) (ends : machine.EndsAfter turns result final) :
    (machine.limiting (some limit)).EndsAfter turns result (final.limiting (some limit)) := by
  obtain ⟨last, reached, returns⟩ := ends
  obtain ⟨-, config, steps⟩ := after?_frame reached
  refine ⟨last.limiting (some limit), after?_limiting unlimited (by omega) reached, ?_⟩
  exact returns_limiting (config ▸ unlimited) (by omega) returns

/-! ### At the limit -/

/-- A machine that reaches its limit inside the program is cut there. -/
theorem endsAfter_limit_inside (unlimited : machine.config.maxSteps = none) {turns : Nat}
    {instruction : Instruction} (all : machine.steps + turns = limit)
    (reached : machine.after? turns = some last)
    (inside : last.program.get? last.position = some instruction) :
    (machine.limiting (some limit)).EndsAfter turns (.ok .stepLimit)
      (last.limiting (some limit)) := by
  obtain ⟨-, -, steps⟩ := after?_frame reached
  refine ⟨last.limiting (some limit), after?_limiting unlimited (by omega) reached, ?_⟩
  have spent : (last.limiting (some limit)).limitReached = true := by
    rw [limitReached_limiting, decide_eq_true_eq]
    omega
  have turned : (last.limiting (some limit)).turn = _ := turn_of_limited inside spent
  rw [turned]

/-- The end of the program is noticed before the limit. -/
theorem endsAfter_limit_outside (unlimited : machine.config.maxSteps = none) {turns : Nat}
    (all : machine.steps + turns ≤ limit) (reached : machine.after? turns = some last)
    (outside : last.program.get? last.position = none) :
    (machine.limiting (some limit)).EndsAfter turns (.ok .endOfProgram)
      (last.limiting (some limit)) := by
  refine ⟨last.limiting (some limit), after?_limiting unlimited all reached, ?_⟩
  have turned : (last.limiting (some limit)).turn = _ := turn_of_outside outside
  rw [turned]

/-- A machine goes on for a number of turns or ends before. -/
theorem after?_or_endsAfter (machine : Machine σ) (turns : Nat) :
    (∃ last, machine.after? turns = some last) ∨
      ∃ fewer result final, fewer < turns ∧ machine.EndsAfter fewer result final := by
  induction turns generalizing machine with
  | zero => exact .inl ⟨machine, rfl⟩
  | succ turns ih =>
    cases turned : machine.turn.2 with
    | returns result final =>
      exact .inr ⟨0, result, final, Nat.succ_pos turns, .of_returns turned⟩
    | goesOn next =>
      rw [after?_succ_of_goesOn turned]
      rcases ih next with goes | ⟨fewer, result, final, less, ends⟩
      · exact .inl goes
      · refine .inr ⟨1 + fewer, result, final, by omega, ?_⟩
        exact ends.prepend (after?_one_of_goesOn turned)

/-- Without a limit no turn is cut, and a turn that returns counts at most one step. -/
theorem returns_unlimited (unlimited : machine.config.maxSteps = none)
    (returns : machine.turn.2 = .returns result final) :
    result ≠ .ok .stepLimit ∧ final.steps ≤ machine.steps + 1 := by
  cases machine.moment with
  | outside outside =>
    rw [turn_of_outside outside] at returns
    cases returns
    exact ⟨by simp, Nat.le_succ _⟩
  | limited here reached =>
    simp only [limitReached, unlimited, Bool.false_eq_true] at reached
  | faults here free executed =>
    rw [turn_of_faults here free executed] at returns
    cases returns
    exact ⟨by simp, Nat.le_succ _⟩
  | @acts _ effect state here free executed =>
    rw [turn_of_acts here free executed] at returns
    obtain ⟨-, -, -, steps⟩ := apply_frame { machine with state, steps := machine.steps + 1 } effect
    rw [returns] at steps
    refine ⟨?_, Nat.le_of_eq steps⟩
    rintro rfl
    cases effect with
    | next => cases returns
    | jump target => cases returns
    | halt => cases returns
    | print value =>
      simp only [apply, print] at returns
      split at returns <;> cases returns

/-- Either the limit cuts the run inside the program, or the run ends within the limit, and then it
ends in the same way under every larger limit. -/
theorem limiting_cases (unlimited : machine.config.maxSteps = none) (fresh : machine.steps = 0)
    (limit : Nat) :
    (∃ last instruction, machine.after? limit = some last ∧
        last.program.get? last.position = some instruction ∧
        (machine.limiting (some limit)).EndsAfter limit (.ok .stepLimit)
          (last.limiting (some limit))) ∨
      ∃ turns result final, result ≠ .ok .stepLimit ∧ final.steps ≤ limit ∧
        machine.EndsAfter turns result final ∧
        ∀ more, limit ≤ more →
          (machine.limiting (some more)).EndsAfter turns result (final.limiting (some more)) := by
  rcases machine.after?_or_endsAfter limit with ⟨last, reached⟩ | ⟨turns, result, final, less, ends⟩
  · obtain ⟨-, -, steps⟩ := after?_frame reached
    cases here : last.program.get? last.position with
    | some instruction =>
      exact .inl ⟨last, instruction, reached, here,
        endsAfter_limit_inside unlimited (by omega) reached here⟩
    | none =>
      refine .inr ⟨limit, .ok .endOfProgram, last, by simp, by omega, ?_, ?_⟩
      · exact ⟨last, reached, by rw [turn_of_outside here]⟩
      · intro more larger
        exact endsAfter_limit_outside unlimited (by omega) reached here
  · obtain ⟨last, reached, returns⟩ := ends
    obtain ⟨-, config, steps⟩ := after?_frame reached
    obtain ⟨uncut, within⟩ := returns_unlimited (config ▸ unlimited) returns
    refine .inr ⟨turns, result, final, uncut, by omega, ⟨last, reached, returns⟩, ?_⟩
    intro more larger
    exact EndsAfter.limiting unlimited (by omega) ⟨last, reached, returns⟩

end Machine

/-! ### One more instruction -/

/-- How a run ends that may go on no further than to a position. -/
def Program.cutAt (program : Program) (position : Nat) : RunResult :=
  if position < program.length then .ok .stepLimit else .ok .endOfProgram

/-- What is seen of a run after one more instruction than `report` shows: the instruction at the
report's position is executed on its state. -/
inductive Report.OneMore {σ : Type} [Sink σ] (program : Program) (report : Report σ) :
    Report σ → Prop where
  | faults {instruction : Instruction} {fault : Fault} {state : State}
      (here : program.get? report.position = some instruction)
      (executed : execute instruction report.position program .scanning report.state =
        (.error fault, state)) :
      OneMore program report
        ⟨.error (.faulted fault), state, report.position, report.steps, report.sink⟩
  | stops {instruction : Instruction} {state : State}
      (here : program.get? report.position = some instruction)
      (executed : execute instruction report.position program .scanning report.state =
        (.ok .halt, state)) :
      OneMore program report
        ⟨.ok (.ended report.position), state, report.position, report.steps + 1, report.sink⟩
  | moves {instruction : Instruction} {state : State}
      (here : program.get? report.position = some instruction)
      (executed : execute instruction report.position program .scanning report.state =
        (.ok .next, state)) :
      OneMore program report
        ⟨program.cutAt (report.position + 1), state, report.position + 1, report.steps + 1,
          report.sink⟩
  | jumps {instruction : Instruction} {target : Nat} {state : State}
      (here : program.get? report.position = some instruction)
      (executed : execute instruction report.position program .scanning report.state =
        (.ok (.jump target), state)) :
      OneMore program report
        ⟨program.cutAt target, state, target, report.steps + 1, report.sink⟩
  | prints {instruction : Instruction} {value : Value} {characters : List StyledChar} {state : State}
      (here : program.get? report.position = some instruction)
      (executed : execute instruction report.position program .scanning report.state =
        (.ok (.print value), state))
      (rendered : characters.map StyledChar.character = value.glyphs) :
      OneMore program report
        ⟨program.cutAt (report.position + 1), state, report.position + 1, report.steps + 1,
          (Sink.write characters report.sink).2⟩

/-- One more instruction hands at most one print to the sink. -/
theorem Report.OneMore.exists_written {σ : Type} [Sink σ] {program : Program}
    {shorter longer : Report σ} (oneMore : OneMore program shorter longer) :
    ∃ written, longer.sink = Sink.writeAll written shorter.sink := by
  cases oneMore with
  | faults => exact ⟨[], rfl⟩
  | stops => exact ⟨[], rfl⟩
  | moves => exact ⟨[], rfl⟩
  | jumps => exact ⟨[], rfl⟩
  | @prints _ _ characters => exact ⟨[characters], rfl⟩

namespace Machine

variable {σ : Type} [Sink σ] {machine last : Machine σ} {limit : Nat}

/-- What is seen of a machine does not show its limit. -/
theorem reports_limiting {turns : Nat} {result : RunResult} {final : Machine σ}
    (ends : (machine.limiting (some limit)).EndsAfter turns result (final.limiting (some limit))) :
    (machine.limiting (some limit)).Reports (final.report result) := by
  change (machine.limiting (some limit)).Reports ((final.limiting (some limit)).report result)
  exact reports_of_endsAfter ends

/-- A machine that goes on for as many turns as its limit is seen cut, or at the end of the
program. -/
theorem reports_cutAt (unlimited : machine.config.maxSteps = none) (fresh : machine.steps = 0)
    (reached : machine.after? limit = some last) :
    (machine.limiting (some limit)).Reports (last.report (machine.program.cutAt last.position)) := by
  obtain ⟨program, -, -⟩ := after?_frame reached
  unfold Program.cutAt
  split
  · next inside =>
    have here : last.program.get? last.position = some machine.program.instructions[last.position] := by
      rw [program]
      exact List.getElem?_eq_getElem inside
    exact reports_limiting (endsAfter_limit_inside unlimited (by omega) reached here)
  · next outside =>
    have here : last.program.get? last.position = none := by
      rw [program]
      exact List.getElem?_eq_none (Nat.le_of_not_lt outside)
    exact reports_limiting (endsAfter_limit_outside unlimited (by omega) reached here)

/-- With one more step of allowance a run that was cut executes one more instruction. -/
theorem exists_oneMore (accepting : Sink.Accepting σ) (unlimited : machine.config.maxSteps = none)
    (fresh : machine.steps = 0) {instruction : Instruction}
    (reached : machine.after? limit = some last)
    (here : last.program.get? last.position = some instruction) :
    ∃ longer, (machine.limiting (some (limit + 1))).Reports longer ∧
      Report.OneMore machine.program (last.report (.ok .stepLimit)) longer := by
  obtain ⟨program, config, steps⟩ := after?_frame reached
  have goesOn {next : Machine σ} (goes : last.turn.2 = .goesOn next) :
      (machine.limiting (some (limit + 1))).Reports
        (next.report (machine.program.cutAt next.position)) :=
    reports_cutAt unlimited fresh (after?_trans reached (after?_one_of_goesOn goes))
  have returned {result : RunResult} {final : Machine σ}
      (returns : last.turn.2 = .returns result final) :
      (machine.limiting (some (limit + 1))).Reports (final.report result) :=
    reports_limiting (EndsAfter.limiting unlimited (by omega) ⟨last, reached, returns⟩)
  have resolved {instruction : Instruction}
      (found : last.program.get? last.position = some instruction) :
      execute instruction last.position last.program last.resolver last.state =
        execute instruction last.position machine.program .scanning last.state := by
    rw [last.resolver_eq, execute_ofProgram found, program]
  cases last.moment with
  | outside outside =>
    rw [outside] at here
    cases here
  | limited found spent =>
    simp only [limitReached, config, unlimited, Bool.false_eq_true] at spent
  | @faults _ fault state found free executed =>
    have turned := congrArg Prod.snd (turn_of_faults found free executed)
    rw [resolved found] at executed
    rw [program] at found
    exact ⟨_, returned turned, .faults found executed⟩
  | @acts _ effect state found free executed =>
    have turned := congrArg Prod.snd (turn_of_acts found free executed)
    rw [resolved found] at executed
    rw [program] at found
    cases effect with
    | next => exact ⟨_, goesOn turned, .moves found executed⟩
    | jump target => exact ⟨_, goesOn turned, .jumps found executed⟩
    | halt => exact ⟨_, returned turned, .stops found executed⟩
    | print value =>
      have rendered := last.renderer.map_character_render value state.styled
      have printed := print_of_accepting accepting { last with state, steps := last.steps + 1 } value
      exact ⟨_, goesOn (turned.trans printed), .prints found executed rendered⟩

/-- Either the limit cuts the run inside the program, or the same is seen without a limit and under
every larger one. -/
theorem reports_cases (unlimited : machine.config.maxSteps = none) (fresh : machine.steps = 0)
    (limit : Nat) :
    (∃ last instruction, machine.after? limit = some last ∧
        last.program.get? last.position = some instruction ∧
        (machine.limiting (some limit)).Reports (last.report (.ok .stepLimit))) ∨
      ∃ report : Report σ, report.result ≠ .ok .stepLimit ∧ report.steps ≤ limit ∧
        machine.Reports report ∧
        ∀ more, limit ≤ more → (machine.limiting (some more)).Reports report := by
  rcases limiting_cases unlimited fresh limit with
    ⟨last, instruction, reached, here, ends⟩ | ⟨turns, result, final, uncut, within, ends, larger⟩
  · exact .inl ⟨last, instruction, reached, here, reports_limiting ends⟩
  · refine .inr ⟨final.report result, uncut, within, reports_of_endsAfter ends, ?_⟩
    intro more le
    exact reports_limiting (larger more le)

/-- Every limited run returns, after no more steps than allowed. -/
theorem exists_reports_limiting (unlimited : machine.config.maxSteps = none)
    (fresh : machine.steps = 0) (limit : Nat) :
    ∃ report, (machine.limiting (some limit)).Reports report ∧ report.steps ≤ limit := by
  rcases reports_cases unlimited fresh limit with
    ⟨last, _, reached, _, cut⟩ | ⟨report, _, within, _, larger⟩
  · obtain ⟨-, -, steps⟩ := after?_frame reached
    refine ⟨_, cut, ?_⟩
    show last.steps ≤ limit
    omega
  · exact ⟨report, larger limit (Nat.le_refl limit), within⟩

/-- What is seen of a limited run shows it cut inside the program, or is also seen without a limit and
under every larger one. -/
theorem Reports.cut_or_uncut (unlimited : machine.config.maxSteps = none)
    (fresh : machine.steps = 0) {report : Report σ}
    (reports : (machine.limiting (some limit)).Reports report) :
    (∃ last instruction, machine.after? limit = some last ∧
        last.program.get? last.position = some instruction ∧
        report = last.report (.ok .stepLimit)) ∨
      report.result ≠ .ok .stepLimit ∧ machine.Reports report ∧
        ∀ more, limit ≤ more → (machine.limiting (some more)).Reports report := by
  rcases reports_cases unlimited fresh limit with
    ⟨last, instruction, reached, here, cut⟩ | ⟨another, uncut, -, same, larger⟩
  · exact .inl ⟨last, instruction, reached, here, reports.unique cut⟩
  · obtain rfl := reports.unique (larger limit (Nat.le_refl limit))
    exact .inr ⟨uncut, same, larger⟩

/-- A run is cut exactly if it goes on for as many turns as allowed and is then inside the program. -/
theorem Reports.stepLimit_iff (unlimited : machine.config.maxSteps = none)
    (fresh : machine.steps = 0) {report : Report σ}
    (reports : (machine.limiting (some limit)).Reports report) :
    report.result = .ok .stepLimit ↔
      ∃ last, machine.after? limit = some last ∧ last.position < machine.program.length := by
  constructor
  · intro cut
    rcases reports.cut_or_uncut unlimited fresh with
      ⟨last, instruction, reached, here, -⟩ | ⟨uncut, -⟩
    · obtain ⟨same, -, -⟩ := after?_frame reached
      rw [same] at here
      exact ⟨last, reached, (List.getElem?_eq_some_iff.1 here).1⟩
    · exact absurd cut uncut
  · rintro ⟨last, reached, inside⟩
    rw [reports.unique (reports_cutAt unlimited fresh reached)]
    exact if_pos inside

/-- One more step of allowance shows one more instruction or changes nothing. -/
theorem reports_succ (accepting : Sink.Accepting σ) (unlimited : machine.config.maxSteps = none)
    (fresh : machine.steps = 0) {shorter longer : Report σ}
    (reports : (machine.limiting (some limit)).Reports shorter)
    (more : (machine.limiting (some (limit + 1))).Reports longer) :
    longer = shorter ∨ Report.OneMore machine.program shorter longer := by
  rcases reports.cut_or_uncut unlimited fresh with
    ⟨last, instruction, reached, here, rfl⟩ | ⟨-, -, larger⟩
  · obtain ⟨another, seen, oneMore⟩ := exists_oneMore accepting unlimited fresh reached here
    rw [more.unique seen]
    exact .inr oneMore
  · exact .inl (more.unique (larger (limit + 1) (Nat.le_succ limit)))

/-- What a shorter run has printed stays printed in a longer one. -/
theorem limiting_grows (accepting : Sink.Accepting σ) (unlimited : machine.config.maxSteps = none)
    (fresh : machine.steps = 0) {more : Nat} (le : limit ≤ more) {shorter longer : Report σ}
    (reports : (machine.limiting (some limit)).Reports shorter)
    (reportsMore : (machine.limiting (some more)).Reports longer) :
    ∃ written, longer.sink = Sink.writeAll written shorter.sink := by
  obtain ⟨extra, rfl⟩ := Nat.exists_eq_add_of_le le
  induction extra generalizing longer with
  | zero =>
    rw [reportsMore.unique reports]
    exact ⟨[], rfl⟩
  | succ extra ih =>
    obtain ⟨between, reportsBetween, -⟩ := exists_reports_limiting unlimited fresh (limit + extra)
    obtain ⟨written, grown⟩ := ih (Nat.le_add_right limit extra) reportsBetween
    rcases reports_succ accepting unlimited fresh reportsBetween reportsMore with rfl | oneMore
    · exact ⟨written, grown⟩
    · obtain ⟨last, added⟩ := oneMore.exists_written
      refine ⟨written ++ last, ?_⟩
      rw [added, grown, Sink.writeAll_append]

/-- A step limit cuts a run without changing it. -/
theorem step_limit_cuts (accepting : Sink.Accepting σ) (program : Program) (sink : σ)
    (config : Config) (words : Words) :
    let unlimited := create program sink { config with maxSteps := none } words
    let limited := fun limit => create program sink { config with maxSteps := some limit } words
    -- Every limited run returns within its limit.
    (∀ limit, ∃ report, (limited limit).Reports report ∧ report.steps ≤ limit) ∧
    -- It is cut exactly if so many instructions go on and the machine is then inside the program.
    (∀ limit report, (limited limit).Reports report →
      (report.result = .ok .stepLimit ↔
        ∃ last, unlimited.after? limit = some last ∧ last.position < program.length)) ∧
    -- A run that is not cut is the unlimited run, and the run under every larger limit.
    (∀ limit report, (limited limit).Reports report → report.result ≠ .ok .stepLimit →
      unlimited.Reports report ∧ ∀ more, limit ≤ more → (limited more).Reports report) ∧
    -- A run that is cut executes one more instruction under the next limit.
    (∀ limit report, (limited limit).Reports report → report.result = .ok .stepLimit →
      ∃ longer, (limited (limit + 1)).Reports longer ∧ Report.OneMore program report longer) ∧
    -- What has been printed under a limit is the beginning of what is printed under a larger one.
    (∀ limit more shorter longer, limit ≤ more → (limited limit).Reports shorter →
      (limited more).Reports longer →
      (∃ written, longer.sink = Sink.writeAll written shorter.sink) ∧
        ∀ text, Sink.Shows text → text shorter.sink <+: text longer.sink) ∧
    -- The end of the program counts before the limit, and the limit before a stop instruction.
    (∀ limit last, unlimited.after? limit = some last →
      (program.get? last.position = none → (limited limit).Reports (last.report (.ok .endOfProgram))) ∧
      (program.get? last.position = some .halt →
        (limited limit).Reports (last.report (.ok .stepLimit)))) := by
  intro unlimited limited
  have free : unlimited.config.maxSteps = none := rfl
  have fresh : unlimited.steps = 0 := rfl
  refine ⟨?_, ?_, ?_, ?_, ?_, ?_⟩
  · intro limit
    exact exists_reports_limiting free fresh limit
  · intro limit report reports
    exact Reports.stepLimit_iff free fresh reports
  · intro limit report reports uncut
    rcases Reports.cut_or_uncut free fresh reports with ⟨last, _, _, _, rfl⟩ | ⟨-, same⟩
    · exact absurd rfl uncut
    · exact same
  · intro limit report reports cut
    rcases Reports.cut_or_uncut free fresh reports with
      ⟨last, instruction, reached, here, rfl⟩ | ⟨uncut, -⟩
    · exact exists_oneMore accepting free fresh reached here
    · exact absurd cut uncut
  · intro limit more shorter longer le reports reportsMore
    obtain ⟨written, grown⟩ := limiting_grows accepting free fresh le reports reportsMore
    refine ⟨⟨written, grown⟩, ?_⟩
    intro text shows
    rw [grown]
    exact shows.prefix_writeAll written shorter.sink
  · intro limit last reached
    have reports : (limited limit).Reports (last.report (program.cutAt last.position)) :=
      reports_cutAt free fresh reached
    constructor
    · intro outside
      have past : ¬ last.position < program.length :=
        Nat.not_lt.2 (List.getElem?_eq_none_iff.1 outside)
      rw [Program.cutAt, if_neg past] at reports
      exact reports
    · intro stop
      have inside : last.position < program.length := (List.getElem?_eq_some_iff.1 stop).1
      rw [Program.cutAt, if_pos inside] at reports
      exact reports

/-- Allowed two instructions, the endless program `-()` is cut after them. -/
theorem step_limit_cuts_endless :
    ∃ report, (create ⟨[.decrement, .loopStart, .loopEnd], rfl⟩ Captured.empty
      { maxSteps := some 2 } (.cyclic [])).Reports report ∧ report.steps ≤ 2 ∧
        report.result = .ok .stepLimit := by
  obtain ⟨returns, cut, -⟩ := step_limit_cuts Captured.accepting
    ⟨[.decrement, .loopStart, .loopEnd], rfl⟩ Captured.empty {} (.cyclic [])
  obtain ⟨report, reports, within⟩ := returns 2
  exact ⟨report, reports, within, (cut 2 report reports).2 ⟨_, rfl, by decide⟩⟩

end Machine

end Crosswire
