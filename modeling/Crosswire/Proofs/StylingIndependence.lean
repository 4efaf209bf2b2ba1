/-
Module: Crosswire.Proofs.StylingIndependence
Purpose: Looks never interfere. Two machines on the same program with the same step limit go through the
  same states, positions and step counts and print the same characters, whatever each of them does about
  styling and tracing and whatever random words it draws: a turn looks at the drawn words only to give
  looks to characters, and never at the looks.
Imports: Crosswire.Proofs.Lockstep
Main exports: Report.reading, Machine.Alike, Machine.Alike.turn, Machine.Alike.later,
  Machine.Alike.calls
-/
import Crosswire.Proofs.Lockstep

namespace Crosswire

/-- A report with what is read off the sink in place of the sink. -/
def Report.reading {σ τ : Type} (read : σ → τ) (report : Report σ) : Report τ :=
  ⟨report.result, report.state, report.position, report.steps, read report.sink⟩

/-- Two sinks that show the same text also do so after prints of the same characters. -/
theorem Captured.text_write_eq {first second : Captured} (text : second.text = first.text)
    {characters others : List StyledChar}
    (same : others.map StyledChar.character = characters.map StyledChar.character) :
    (Sink.write others second).2.text = (Sink.write characters first).2.text := by
  apply String.toList_injective
  calc (Sink.write others second).2.text.toList
      = second.text.toList ++ others.map StyledChar.character := shows_text others second
    _ = first.text.toList ++ characters.map StyledChar.character := by rw [text, same]
    _ = (Sink.write characters first).2.text.toList := (shows_text characters first).symm

/-- Both sinks show the same text, in the same number of prints. -/
def ShowTheSame (_ : Renderer) (first : Captured) (_ : Renderer) (second : Captured) : Prop :=
  second.text = first.text ∧ second.prints = first.prints

/-- Prints are the same characters, with looks or without. -/
theorem keptByPrints_showTheSame : KeptByPrints ShowTheSame := by
  rintro renderer first other second ⟨text, prints⟩ value styled
  refine ⟨Captured.accepting _ _, Captured.accepting _ _, ?_, congrArg (· + 1) prints⟩
  apply Captured.text_write_eq text
  rw [Renderer.map_character_render, Renderer.map_character_render]

namespace Machine

/-- The machines stand at the same place of the same program, under the same limit, and have printed the
same characters. How they find partners, what they trace and which looks they give is left open. -/
structure Alike (first second : Machine Captured) : Prop where
  program : second.program = first.program
  limit : second.config.maxSteps = first.config.maxSteps
  state : second.state = first.state
  position : second.position = first.position
  steps : second.steps = first.steps
  text : second.sink.text = first.sink.text
  prints : second.sink.prints = first.sink.prints

namespace Alike

variable {first second final : Machine Captured} {result : RunResult}

theorem symm (alike : Alike first second) : Alike second first :=
  ⟨alike.program.symm, alike.limit.symm, alike.state.symm, alike.position.symm, alike.steps.symm,
    alike.text.symm, alike.prints.symm⟩

theorem lockstep (alike : Alike first second) : Lockstep ShowTheSame first second :=
  ⟨alike.program, alike.limit, alike.state, alike.position, alike.steps, alike.text, alike.prints⟩

theorem of_lockstep (lockstep : Lockstep ShowTheSame first second) : Alike first second :=
  ⟨lockstep.program, lockstep.limit, lockstep.state, lockstep.position, lockstep.steps,
    lockstep.output.1, lockstep.output.2⟩

/-- The machines go on alike, or return the same and are left alike. -/
theorem turn (alike : Alike first second) :
    (∃ next after, first.turn.2 = .goesOn next ∧ second.turn.2 = .goesOn after ∧
        Alike next after) ∨
      ∃ result final after, first.turn.2 = .returns result final ∧
        second.turn.2 = .returns result after ∧ Alike final after := by
  rcases alike.lockstep.turn keptByPrints_showTheSame with ⟨next, after, goes, goesToo, still⟩ |
    ⟨result, final, after, returns, returnsToo, still⟩
  · exact .inl ⟨next, after, goes, goesToo, .of_lockstep still⟩
  · exact .inr ⟨result, final, after, returns, returnsToo, .of_lockstep still⟩

theorem successor (alike : Alike first second) : Alike first.successor second.successor := by
  rcases alike.turn with ⟨next, after, goes, goesToo, still⟩ |
    ⟨result, final, after, returns, returnsToo, still⟩
  · rw [successor_of_goesOn goes, successor_of_goesOn goesToo]
    exact still
  · rw [successor_of_returns returns, successor_of_returns returnsToo]
    exact still

/-! ### All turns and all calls -/

theorem later (alike : Alike first second) (turns : Nat) :
    Alike (first.later turns) (second.later turns) := by
  induction turns with
  | zero => exact alike
  | succ turns ih =>
    rw [later_succ, later_succ]
    exact ih.successor

/-- A call that returns on one machine returns the same on the other. -/
theorem endsAfter (alike : Alike first second) {turns : Nat}
    (ends : first.EndsAfter turns result final) :
    ∃ after, second.EndsAfter turns result after ∧ Alike final after := by
  obtain ⟨after, endsToo, still⟩ := alike.lockstep.endsAfter keptByPrints_showTheSame ends
  exact ⟨after, endsToo, .of_lockstep still⟩

/-- However often the machines are called, their reports agree up to looks. -/
theorem calls (alike : Alike first second) {reports : List (Report Captured)}
    (calls : first.Calls reports) :
    ∃ others, second.Calls others ∧
      others.map (Report.reading Captured.text) = reports.map (Report.reading Captured.text) := by
  induction reports generalizing first second with
  | nil => exact ⟨[], .nil second, rfl⟩
  | cons report reports ih =>
    obtain ⟨turns, result, final, ends, rfl, onward⟩ := calls.exists_endsAfter
    obtain ⟨after, endsToo, same⟩ := alike.endsAfter ends
    obtain ⟨others, again, seen⟩ := ih same onward
    refine ⟨after.report result :: others, .cons endsToo again, ?_⟩
    rw [List.map_cons, List.map_cons, seen]
    simp only [Report.reading, report, same.state, same.position, same.steps, same.text]

theorem of_create (program : Program) (config : Config) (words others : Words)
    (allowStyling trace : Bool) :
    Alike (create program Captured.empty config words)
      (create program Captured.empty { config with allowStyling, trace } others) :=
  ⟨rfl, rfl, rfl, rfl, rfl, rfl, rfl⟩

end Alike

end Machine

end Crosswire
