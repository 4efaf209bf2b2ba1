/-
Module: Crosswire.Proofs.CallingAgain
Purpose: What a call returns on a machine whose last call has returned. A call that came to the end of
  the program, to the step limit or to a fault has executed nothing in its last turn, so the machine is
  the one that took this turn, and every further call takes the same turn again. A stop instruction is
  executed once more by each call, and counted, until the step limit forbids it.
Imports: Crosswire.Proofs.History
Main exports: AtRest, Machine.final_eq_of_atRest, Machine.halted_of_returns, Machine.turn_of_halt,
  Machine.Calls.exists_returns, Machine.calls_iff_of_rests, Machine.calling_again
-/
import Crosswire.Proofs.History

namespace Crosswire

/-- Results of a call whose last turn has executed nothing. -/
inductive AtRest : RunResult → Prop where
  | endOfProgram : AtRest (.ok .endOfProgram)
  | stepLimit : AtRest (.ok .stepLimit)
  | faulted (fault : Fault) : AtRest (.error (.faulted fault))

/-- Only the stop instruction asks to stop, and it leaves the state alone. -/
theorem execute_eq_halt {instruction : Instruction} {position : Nat} {program : Program}
    {resolver : Resolver} {state next : State}
    (executed : execute instruction position program resolver state = (.ok .halt, next)) :
    instruction = .halt ∧ next = state := by
  cases instruction <;> grind [execute, takeJump, combineOperand]

namespace Machine

variable {σ : Type} [Sink σ] {machine final : Machine σ} {result : RunResult}

/-! ### The last turn of a call -/

/-- A turn that returns without having executed anything leaves the machine as it was. -/
theorem final_eq_of_atRest (returns : machine.turn.2 = .returns result final)
    (rests : AtRest result) : final = machine := by
  cases rests with
  | endOfProgram =>
    cases stops_of_returns returns with
    | outside outside => rfl
  | stepLimit =>
    cases stops_of_returns returns with
    | limited reached => rfl
  | faulted fault =>
    cases stops_of_returns returns with
    | faults here executed => rfl

/-- A stop leaves the machine at the stop instruction. -/
theorem halted_of_returns {position : Nat}
    (returns : machine.turn.2 = .returns (.ok (.ended position)) final) :
    final.position = position ∧ final.program.get? final.position = some .halt := by
  cases stops_of_returns returns with
  | halts here executed =>
    obtain ⟨rfl, rfl⟩ := execute_eq_halt executed
    exact ⟨rfl, here⟩

omit [Sink σ] in
theorem limitReached_iff :
    machine.limitReached = true ↔
      ∃ limit, machine.config.maxSteps = some limit ∧ limit ≤ machine.steps := by
  unfold limitReached
  cases machine.config.maxSteps with
  | none => simp
  | some limit => simp

/-- A machine at a stop instruction executes it, unless the limit is reached. -/
theorem turn_of_halt (here : machine.program.get? machine.position = some .halt)
    (free : machine.limitReached = false) :
    machine.turn.2 =
      .returns (.ok (.ended machine.position)) { machine with steps := machine.steps + 1 } := by
  rw [turn_of_acts here free rfl]
  rfl

/-! ### Calls one after the other -/

/-- The last of several reports is of a turn that returned, and the calls after it are those of the
machine that this turn left. -/
theorem Calls.exists_returns {earlier : List (Report σ)} {report : Report σ}
    (calls : machine.Calls (earlier ++ [report])) :
    ∃ (last final : Machine σ) (result : RunResult),
      last.turn.2 = .returns result final ∧ final.config = machine.config ∧
      report = final.report result ∧
      ∀ later, machine.Calls (earlier ++ report :: later) ↔ final.Calls later := by
  induction earlier generalizing machine with
  | nil =>
    obtain ⟨turns, result, final, ends, seen, -⟩ := calls.exists_endsAfter
    have onward (later : List (Report σ)) : machine.Calls (report :: later) ↔ final.Calls later := by
      rw [calls_cons_iff ends, and_iff_right seen]
    have config := ends.config_eq
    obtain ⟨last, -, returns⟩ := ends
    exact ⟨last, final, result, returns, config, seen, onward⟩
  | cons first earlier ih =>
    obtain ⟨turns, result, next, ends, seenFirst, again⟩ := calls.exists_endsAfter
    obtain ⟨last, final, other, returns, config, seen, onward⟩ := ih again
    refine ⟨last, final, other, returns, config.trans ends.config_eq, seen, ?_⟩
    intro later
    rw [List.cons_append, calls_cons_iff ends, and_iff_right seenFirst]
    exact onward later

/-- A machine that returns from its next turn as it is shows the same report at every call. -/
theorem calls_iff_of_rests (rests : machine.turn.2 = .returns result machine)
    (reports : List (Report σ)) :
    machine.Calls reports ↔ ∀ report ∈ reports, report = machine.report result := by
  induction reports with
  | nil => simp [Calls.nil]
  | cons report later ih => rw [calls_cons_iff (.of_returns rests), ih, List.forall_mem_cons]

/-- Once a call has come to the end of the program, to the step limit or to a fault, all further calls
return the same and change nothing. Once a call has executed a stop instruction, the next call executes
it again, or is cut by the step limit; either way only the step count can change. -/
theorem calling_again (program : Program) (sink : σ) (config : Config) (words : Words)
    (earlier : List (Report σ)) (last : Report σ)
    (called : (create program sink config words).Calls (earlier ++ [last])) :
    let machine := create program sink config words
    (AtRest last.result → ∀ later,
      (machine.Calls (earlier ++ last :: later) ↔ ∀ report ∈ later, report = last)) ∧
    ∀ position, last.result = .ok (.ended position) →
      last.position = position ∧
      ((∀ limit, config.maxSteps = some limit → last.steps < limit) → ∀ next,
        (machine.Calls (earlier ++ [last, next]) ↔ next = { last with steps := last.steps + 1 })) ∧
      ∀ limit, config.maxSteps = some limit → limit ≤ last.steps → ∀ next,
        (machine.Calls (earlier ++ [last, next]) ↔ next = { last with result := .ok .stepLimit }) := by
  intro machine
  obtain ⟨before, final, result, returns, kept, rfl, onward⟩ := called.exists_returns
  refine ⟨?_, ?_⟩
  · intro rests later
    obtain rfl := final_eq_of_atRest returns rests
    rw [onward]
    exact calls_iff_of_rests returns later
  · intro position ended
    obtain rfl : result = .ok (.ended position) := ended
    obtain ⟨rfl, here⟩ := halted_of_returns returns
    refine ⟨rfl, ?_, ?_⟩
    · intro below next
      have free : final.limitReached = false := by
        rw [Bool.eq_false_iff, ne_eq, limitReached_iff, kept]
        rintro ⟨limit, limited, reached⟩
        exact absurd (below limit limited) (Nat.not_lt.2 reached)
      rw [onward, calls_cons_iff (.of_returns (turn_of_halt here free)), and_iff_left (.nil _)]
      rfl
    · intro limit limited reached next
      have spent : final.limitReached = true := limitReached_iff.2 ⟨limit, kept ▸ limited, reached⟩
      have cut : final.turn.2 = .returns (.ok .stepLimit) final := by
        rw [turn_of_limited here spent]
      rw [onward, calls_cons_iff (.of_returns cut), and_iff_left (.nil _)]
      rfl

/-- Allowed two instructions, the program `!.` stops at its end; the second call is cut there, and so is
the third. -/
theorem calling_again_limited :
    ∃ stopped cut : Report Captured,
      (create ⟨[.print, .halt], rfl⟩ Captured.empty { maxSteps := some 2 } (.cyclic [])).Calls
        [stopped, cut, cut] ∧
      stopped.result = .ok (.ended 1) ∧ cut = { stopped with result := .ok .stepLimit } := by
  have returns : Run.Returns
      (create ⟨[.print, .halt], rfl⟩ Captured.empty { maxSteps := some 2 } (.cyclic []))
      (.ok (.ended 1)) _ _ := ⟨2, rfl⟩
  obtain ⟨turns, ends⟩ := returns_iff.1 ⟨_, returns⟩
  obtain ⟨-, stops⟩ := calling_again _ _ _ _ [] _ (.cons ends (.nil _))
  obtain ⟨-, -, cuts⟩ := stops 1 rfl
  have twice := (cuts 2 rfl (Nat.le_refl 2) _).2 rfl
  obtain ⟨rests, -⟩ := calling_again _ _ _ _ [_] _ twice
  exact ⟨_, _, (rests .stepLimit [_]).2 (by simp), rfl, rfl⟩

end Machine

end Crosswire
