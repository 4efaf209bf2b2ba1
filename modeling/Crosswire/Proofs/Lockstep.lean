/-
Module: Crosswire.Proofs.Lockstep
Purpose: Two machines that differ only in how they print go through the same turns. Where a machine
  prints to is never looked at by its program, so as long as both sinks take every print, the two stand at
  the same place after every turn, return together and return the same. What holds between the sinks is a
  parameter: it is any relation that every print keeps.
Imports: Crosswire.Proofs.History, Crosswire.Proofs.Printing
Main exports: Machine.Lockstep, KeptByPrints, Machine.Lockstep.turn, Machine.Lockstep.endsAfter
-/
import Crosswire.Proofs.History
import Crosswire.Proofs.Printing

namespace Crosswire

variable {σ τ : Type}

namespace Machine

/-- The machines stand at the same place of the same program, under the same limit. How they find
partners and what they trace is left open, and their ways of printing are related. -/
structure Lockstep (related : Renderer → σ → Renderer → τ → Prop) (first : Machine σ)
    (second : Machine τ) : Prop where
  program : second.program = first.program
  limit : second.config.maxSteps = first.config.maxSteps
  state : second.state = first.state
  position : second.position = first.position
  steps : second.steps = first.steps
  output : related first.renderer first.sink second.renderer second.sink

namespace Lockstep

variable {related : Renderer → σ → Renderer → τ → Prop} {first : Machine σ} {second : Machine τ}
  {instruction : Instruction}

theorem swap (lockstep : Lockstep related first second) :
    Lockstep (fun other another renderer sink => related renderer sink other another) second first :=
  ⟨lockstep.program.symm, lockstep.limit.symm, lockstep.state.symm, lockstep.position.symm,
    lockstep.steps.symm, lockstep.output⟩

theorem limitReached_eq (lockstep : Lockstep related first second) :
    second.limitReached = first.limitReached := by
  simp only [limitReached, lockstep.limit, lockstep.steps]

theorem get?_eq (lockstep : Lockstep related first second) :
    second.program.get? second.position = first.program.get? first.position := by
  rw [lockstep.program, lockstep.position]

theorem execute_eq (lockstep : Lockstep related first second)
    (here : first.program.get? first.position = some instruction) :
    execute instruction second.position second.program second.resolver second.state =
      execute instruction first.position first.program first.resolver first.state := by
  rw [second.resolver_eq, first.resolver_eq, lockstep.program, lockstep.position, lockstep.state,
    execute_ofProgram here, execute_ofProgram here]

/-- Both machines count an executed instruction. -/
theorem counted (lockstep : Lockstep related first second) (state : State) :
    Lockstep related { first with state, steps := first.steps + 1 }
      { second with state, steps := second.steps + 1 } :=
  { lockstep with state := rfl, steps := congrArg (· + 1) lockstep.steps }

end Lockstep

end Machine

/-! ### Prints -/

variable [Sink σ] [Sink τ]

/-- What every print keeps of two ways of printing, each a renderer with its sink: both sinks take the
print, and the relation between them holds again. -/
def KeptByPrints (related : Renderer → σ → Renderer → τ → Prop) : Prop :=
  ∀ renderer sink other another, related renderer sink other another → ∀ value styled,
    (Sink.write (renderer.render value styled).1 sink).1 = .ok () ∧
      (Sink.write (other.render value styled).1 another).1 = .ok () ∧
      related (renderer.render value styled).2 (Sink.write (renderer.render value styled).1 sink).2
        (other.render value styled).2 (Sink.write (other.render value styled).1 another).2

theorem KeptByPrints.swap {related : Renderer → σ → Renderer → τ → Prop} (kept : KeptByPrints related) :
    KeptByPrints fun other another renderer sink => related renderer sink other another := by
  intro other another renderer sink before value styled
  obtain ⟨taken, takenToo, after⟩ := kept renderer sink other another before value styled
  exact ⟨takenToo, taken, after⟩

namespace Machine

namespace Lockstep

variable {related : Renderer → σ → Renderer → τ → Prop} {first : Machine σ} {second : Machine τ}

/-- Both machines make the same print, each in its own way. -/
theorem printed (kept : KeptByPrints related) (lockstep : Lockstep related first second)
    (value : Value) :
    ∃ next after, first.print value = .goesOn next ∧ second.print value = .goesOn after ∧
      Lockstep related next after := by
  obtain ⟨taken, takenToo, after⟩ :=
    kept _ _ _ _ lockstep.output value first.state.styled
  rw [← lockstep.state] at takenToo
  refine ⟨_, _, print_of_taken (Prod.ext taken rfl), print_of_taken (Prod.ext takenToo rfl), ?_⟩
  exact { lockstep with
    position := congrArg (· + 1) lockstep.position
    output := by
      rw [lockstep.state]
      exact after }

/-! ### One turn -/

/-- The machines go on together, or return the same together. -/
theorem turn (kept : KeptByPrints related) (lockstep : Lockstep related first second) :
    (∃ next after, first.turn.2 = .goesOn next ∧ second.turn.2 = .goesOn after ∧
        Lockstep related next after) ∨
      ∃ result final after, first.turn.2 = .returns result final ∧
        second.turn.2 = .returns result after ∧ Lockstep related final after := by
  cases first.moment with
  | outside outside =>
    rw [turn_of_outside outside, turn_of_outside (lockstep.get?_eq.trans outside)]
    exact .inr ⟨_, _, _, rfl, rfl, lockstep⟩
  | limited here reached =>
    rw [turn_of_limited here reached, turn_of_limited (lockstep.get?_eq.trans here)
      (lockstep.limitReached_eq.trans reached)]
    exact .inr ⟨_, _, _, rfl, rfl, lockstep⟩
  | faults here free executed =>
    rw [turn_of_faults here free executed, turn_of_faults (lockstep.get?_eq.trans here)
      (lockstep.limitReached_eq.trans free) ((lockstep.execute_eq here).trans executed)]
    exact .inr ⟨_, _, _, rfl, rfl, { lockstep with state := rfl }⟩
  | @acts _ effect state here free executed =>
    rw [turn_of_acts here free executed, turn_of_acts (lockstep.get?_eq.trans here)
      (lockstep.limitReached_eq.trans free) ((lockstep.execute_eq here).trans executed)]
    have counted := lockstep.counted state
    cases effect with
    | next =>
      exact .inl ⟨_, _, rfl, rfl, { counted with position := congrArg (· + 1) lockstep.position }⟩
    | jump target => exact .inl ⟨_, _, rfl, rfl, { counted with position := rfl }⟩
    | print value => exact .inl (counted.printed kept value)
    | halt =>
      refine .inr ⟨_, _, _, rfl, ?_, counted⟩
      simp only [apply, lockstep.position]

/-! ### All turns -/

/-- A call that returns on one machine returns the same on the other. -/
theorem endsAfter (kept : KeptByPrints related) (lockstep : Lockstep related first second)
    {turns : Nat} {result : RunResult} {final : Machine σ}
    (ends : first.EndsAfter turns result final) :
    ∃ after, second.EndsAfter turns result after ∧ Lockstep related final after := by
  obtain ⟨last, reached, returned⟩ := ends
  induction turns generalizing first second with
  | zero =>
    cases reached
    rcases lockstep.turn kept with ⟨next, after, goes, -, -⟩ |
      ⟨other, another, after, returns, returnsToo, still⟩
    · rw [goes] at returned
      cases returned
    · rw [returns] at returned
      cases returned
      exact ⟨after, .of_returns returnsToo, still⟩
  | succ turns ih =>
    rcases lockstep.turn kept with ⟨next, after, goes, goesToo, still⟩ |
      ⟨other, another, after, returns, -, -⟩
    · rw [after?_succ_of_goesOn goes] at reached
      obtain ⟨there, ends, same⟩ := ih still reached
      refine ⟨there, ?_, same⟩
      rw [Nat.add_comm]
      exact ends.prepend (after?_one_of_goesOn goesToo)
    · rw [after?_succ_of_returns returns] at reached
      cases reached

end Lockstep

end Machine

end Crosswire
