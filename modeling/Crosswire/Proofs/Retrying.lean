/-
Module: Crosswire.Proofs.Retrying
Purpose: A refused print loses and doubles nothing. A print that the sink does not take leaves state
  and position as they were, so that the next call makes the same print again; only the step count has
  moved. A machine whose sink refuses some prints, called again after each refusal, therefore goes
  through the machines of the undisturbed run, and is behind them only by the refused attempts.
Imports: Crosswire.Proofs.Printing, Crosswire.Proofs.Turns
Main exports: Refusing.failures, Machine.Resumes, Machine.Matches, Machine.Matches.goesOn,
  Machine.Matches.after?_resumes, Machine.retried_run
-/
import Crosswire.Proofs.Printing
import Crosswire.Proofs.Turns

namespace Crosswire

/-! ### Sinks that refuse some prints -/

/-- What is fixed about the captured characters before looks are drawn. -/
def Captured.shapes (captured : Captured) : List (Char × Bool) :=
  captured.characters.toList.map StyledChar.shape

namespace Captured

theorem shapes_write (characters : List StyledChar) (captured : Captured) :
    (Sink.write characters captured).2.shapes =
      captured.shapes ++ characters.map StyledChar.shape := by
  simp [shapes, Sink.write]

theorem text_eq_of_shapes {first second : Captured} (same : first.shapes = second.shapes) :
    first.text = second.text := by
  have characters := congrArg (List.map Prod.fst) same
  simp only [shapes, List.map_map] at characters
  exact congrArg String.ofList characters

theorem styled_eq_of_shapes {first second : Captured} (same : first.shapes = second.shapes) :
    first.characters.toList.map (·.style.isSome) =
      second.characters.toList.map (·.style.isSome) := by
  have looks := congrArg (List.map Prod.snd) same
  simp only [shapes, List.map_map] at looks
  exact looks

end Captured

namespace Refusing

variable {σ : Type} {refusing : Refusing σ}

/-- Only finitely many prints can be refused from now on. -/
theorem exists_bound (refusing : Refusing σ) :
    ∃ left, ∀ number ∈ refusing.numbers, number < refusing.calls + left := by
  refine ⟨refusing.numbers.max?.getD 0 + 1, ?_⟩
  intro number member
  have bound : number ≤ refusing.numbers.max?.getD 0 := List.le_max?_getD_of_mem member
  omega

/-- How many of the prints that have come in were refused. -/
def failures (refusing : Refusing σ) : Nat :=
  (List.range refusing.calls).countP (refusing.numbers.contains ·)

theorem failures_refuse (refuses : refusing.calls ∈ refusing.numbers) :
    failures { refusing with calls := refusing.calls + 1 } = refusing.failures + 1 := by
  simp [failures, List.range_succ, List.countP_append, refuses]

theorem failures_accept (accepts : refusing.calls ∉ refusing.numbers) (sink : σ) :
    failures { refusing with sink, calls := refusing.calls + 1 } = refusing.failures := by
  simp [failures, List.range_succ, List.countP_append, accepts]

variable [Sink σ]

theorem write_refuse (refuses : refusing.calls ∈ refusing.numbers)
    (characters : List StyledChar) :
    Sink.write characters refusing =
      (.error .refused, { refusing with calls := refusing.calls + 1 }) := by
  simp only [Sink.write, List.contains_iff_mem.2 refuses, if_true]

theorem write_accept (accepts : refusing.calls ∉ refusing.numbers)
    (characters : List StyledChar) :
    Sink.write characters refusing =
      ((Sink.write characters refusing.sink).1,
        { refusing with
          sink := (Sink.write characters refusing.sink).2
          calls := refusing.calls + 1 }) := by
  conv_lhs => simp only [Sink.write, List.contains_iff_mem, accepts, if_false]

end Refusing

/-- Only the print instruction asks for a print, and it leaves the state alone. -/
theorem execute_eq_print {instruction : Instruction} {position : Nat} {program : Program}
    {resolver : Resolver} {state next : State} {value : Value}
    (executed : execute instruction position program resolver state = (.ok (.print value), next)) :
    instruction = .print ∧ next = state := by
  cases instruction <;> grind [execute, takeJump, combineOperand]

namespace Machine

/-! ### Calling again after a failed print -/

section Resumes

variable {σ : Type} [Sink σ] {machine next last final : Machine σ} {result : RunResult}

/-- Only a print that the sink does not take ends a call with an output failure. -/
theorem print_of_returns_output {failure : OutputFailure}
    (fails : machine.turn.2 = .returns (.error (.output failure)) final) :
    machine.program.get? machine.position = some .print ∧
      ∃ value, print { machine with steps := machine.steps + 1 } value =
        .returns (.error (.output failure)) final := by
  cases machine.moment with
  | outside outside =>
    rw [turn_of_outside outside] at fails
    cases fails
  | limited here reached =>
    rw [turn_of_limited here reached] at fails
    cases fails
  | faults here free executed =>
    rw [turn_of_faults here free executed] at fails
    cases fails
  | @acts _ effect state here free executed =>
    rw [turn_of_acts here free executed] at fails
    cases effect with
    | next => cases fails
    | jump target => cases fails
    | halt => cases fails
    | print value =>
      obtain ⟨rfl, rfl⟩ := execute_eq_print executed
      exact ⟨here, value, fails⟩

/-- A print that fails leaves state and position as they were. -/
theorem print_failure_frame {value : Value} {failure : OutputFailure}
    (fails : machine.print value = .returns (.error (.output failure)) final) :
    final.state = machine.state ∧ final.position = machine.position := by
  rcases written : Sink.write (machine.renderer.render value machine.state.styled).1 machine.sink with
    ⟨reason | done, sink⟩
  · rw [print_of_failed written] at fails
    cases fails
    exact ⟨rfl, rfl⟩
  · rw [print_of_taken written] at fails
    cases fails

/-- A call that an output failure ends has stopped at a print, and left state and position as they
were before it. -/
theorem endsAfter_output {turns : Nat} {failure : OutputFailure}
    (ends : machine.EndsAfter turns (.error (.output failure)) final) :
    ∃ before, machine.after? turns = some before ∧
      before.program.get? before.position = some .print ∧
      final.state = before.state ∧ final.position = before.position := by
  obtain ⟨before, reached, fails⟩ := ends
  obtain ⟨here, value, printed⟩ := print_of_returns_output fails
  obtain ⟨state, position⟩ := print_failure_frame printed
  exact ⟨before, reached, here, state, position⟩

/-- A sink that takes every print never ends a call. -/
theorem result_ne_output (accepting : Sink.Accepting σ)
    (returns : machine.turn.2 = .returns result final) (failure : OutputFailure) :
    result ≠ .error (.output failure) := by
  rintro rfl
  obtain ⟨-, value, printed⟩ := print_of_returns_output returns
  rw [print_of_accepting accepting] at printed
  cases printed

/-- The machine gets to another one when it is called again after every output failure; `reports` is
what was seen of it at these failures. -/
inductive Resumes : Machine σ → List (Report σ) → Machine σ → Prop where
  | here (machine : Machine σ) : Resumes machine [] machine
  | goesOn {machine next last : Machine σ} {reports : List (Report σ)}
      (goes : machine.turn.2 = .goesOn next) (onward : Resumes next reports last) :
      Resumes machine reports last
  | again {machine next last : Machine σ} {reports : List (Report σ)} {failure : OutputFailure}
      (fails : machine.turn.2 = .returns (.error (.output failure)) next)
      (onward : Resumes next reports last) :
      Resumes machine (next.report (.error (.output failure)) :: reports) last

namespace Resumes

variable {reports later : List (Report σ)}

theorem trans (first : machine.Resumes reports next) (second : next.Resumes later last) :
    machine.Resumes (reports ++ later) last := by
  induction first with
  | here => exact second
  | goesOn goes onward ih => exact .goesOn goes (ih second)
  | again fails onward ih => exact .again fails (ih second)

/-- If the machine got to returns, so do all calls on the way. -/
theorem calls (resumes : machine.Resumes reports last)
    (returns : last.turn.2 = .returns result final) :
    machine.Calls (reports ++ [final.report result]) := by
  induction resumes with
  | here last => exact .cons (.of_returns returns) (.nil final)
  | goesOn goes onward ih => exact .of_goesOn goes (by simp) (ih returns)
  | again fails onward ih => exact .cons (.of_returns fails) (ih returns)

end Resumes

end Resumes

/-! ### The undisturbed machine beside the retried one -/

/-- The machine `tried`, whose sink refuses the prints with these numbers, stands where the undisturbed
machine `calm` stands, and has printed the same. Its step count is ahead by the refused attempts. -/
structure Matches (numbers : List Nat) (calm : Machine Captured)
    (tried : Machine (Refusing Captured)) : Prop where
  program : tried.program = calm.program
  config : tried.config = calm.config
  state : tried.state = calm.state
  position : tried.position = calm.position
  allowStyling : tried.renderer.allowStyling = calm.renderer.allowStyling
  prints : tried.sink.sink.prints = calm.sink.prints
  shapes : tried.sink.sink.shapes = calm.sink.shapes
  numbers : tried.sink.numbers = numbers
  steps : tried.steps = calm.steps + tried.sink.failures

/-- What is seen at the call that a refused print ended, while `calm` is about to make that print. -/
structure RefusedAt (calm : Machine Captured) (report : Report (Refusing Captured)) : Prop where
  result : report.result = .error (.output .refused)
  here : calm.program.get? calm.position = some .print
  state : report.state = calm.state
  position : report.position = calm.position

namespace Matches

variable {calm next last final : Machine Captured} {tried : Machine (Refusing Captured)}
  {numbers : List Nat} {result : RunResult}

theorem resolver_eq (alike : Matches numbers calm tried) : tried.resolver = calm.resolver := by
  rw [tried.resolver_eq, calm.resolver_eq, alike.program, alike.config]

theorem get?_eq (alike : Matches numbers calm tried) :
    tried.program.get? tried.position = calm.program.get? calm.position := by
  rw [alike.program, alike.position]

theorem execute_eq (alike : Matches numbers calm tried) (instruction : Instruction) :
    execute instruction tried.position tried.program tried.resolver tried.state =
      execute instruction calm.position calm.program calm.resolver calm.state := by
  rw [alike.program, alike.position, alike.resolver_eq, alike.state]

theorem free (alike : Matches numbers calm tried)
    (unlimited : calm.config.maxSteps = none) : tried.limitReached = false := by
  simp only [limitReached, alike.config, unlimited]

/-- Both machines count an executed instruction. -/
theorem counted (alike : Matches numbers calm tried) (state : State) :
    Matches numbers { calm with state, steps := calm.steps + 1 }
      { tried with state, steps := tried.steps + 1 } :=
  { alike with
    state := rfl
    steps := by
      have steps := alike.steps
      simp only
      omega }

/-- Both machines move to a position. -/
theorem moved (alike : Matches numbers calm tried) (position : Nat) :
    Matches numbers { calm with position } { tried with position } :=
  { alike with position := rfl }

/-- A print that is not refused reaches both sinks. -/
theorem print_accept (alike : Matches numbers calm tried)
    (accepts : tried.sink.calls ∉ tried.sink.numbers) {value : Value}
    (goes : calm.print value = .goesOn next) :
    ∃ after, tried.print value = .goesOn after ∧ Matches numbers next after ∧
      after.sink.failures = tried.sink.failures := by
  have unchanged := Refusing.failures_accept accepts
  have styled : (tried.state.styled && tried.renderer.allowStyling) =
      (calm.state.styled && calm.renderer.allowStyling) := by
    rw [alike.state, alike.allowStyling]
  rw [print_of_accepting Captured.accepting] at goes
  cases goes
  refine ⟨_, print_of_taken (Refusing.write_accept accepts _), ?_, unchanged _⟩
  exact {
    program := alike.program
    config := alike.config
    state := alike.state
    position := congrArg (· + 1) alike.position
    allowStyling := by
      rw [Renderer.allowStyling_render, Renderer.allowStyling_render]
      exact alike.allowStyling
    prints := congrArg (· + 1) alike.prints
    numbers := alike.numbers
    shapes := by
      rw [Captured.shapes_write, Captured.shapes_write, Renderer.map_shape_render,
        Renderer.map_shape_render, alike.shapes, styled]
    steps := by
      rw [unchanged]
      exact alike.steps }

/-- A refused print leaves the machine where it stood, one step ahead. -/
theorem print_refuse (alike : Matches numbers calm tried)
    (refuses : tried.sink.calls ∈ tried.sink.numbers) (value : Value) :
    ∃ again, print { tried with steps := tried.steps + 1 } value =
        .returns (.error (.output .refused)) again ∧
      Matches numbers calm again ∧
      again.sink = { tried.sink with calls := tried.sink.calls + 1 } := by
  refine ⟨_, print_of_failed (Refusing.write_refuse refuses _), ?_, rfl⟩
  exact { alike with
    allowStyling := by
      rw [Renderer.allowStyling_render]
      exact alike.allowStyling
    steps := by
      rw [Refusing.failures_refuse refuses]
      exact congrArg (· + 1) alike.steps }

/-- Where the undisturbed machine returns, the other returns the same. -/
theorem returns (alike : Matches numbers calm tried) (unlimited : calm.config.maxSteps = none)
    (returns : calm.turn.2 = .returns result final) :
    ∃ after, tried.turn.2 = .returns result after ∧ Matches numbers final after ∧
      after.sink = tried.sink := by
  have triedFree := alike.free unlimited
  cases calm.moment with
  | outside outside =>
    rw [turn_of_outside outside] at returns
    cases returns
    rw [turn_of_outside (alike.get?_eq.trans outside)]
    exact ⟨tried, rfl, alike, rfl⟩
  | limited here reached =>
    simp only [limitReached, unlimited, Bool.false_eq_true] at reached
  | @faults _ _ state here free executed =>
    rw [turn_of_faults here free executed] at returns
    cases returns
    rw [turn_of_faults (alike.get?_eq.trans here) triedFree ((alike.execute_eq _).trans executed)]
    exact ⟨_, rfl, { alike with state := rfl }, rfl⟩
  | @acts _ effect state here free executed =>
    rw [turn_of_acts here free executed] at returns
    rw [turn_of_acts (alike.get?_eq.trans here) triedFree ((alike.execute_eq _).trans executed)]
    cases effect with
    | next => cases returns
    | jump target => cases returns
    | print value =>
      have printed := print_of_accepting Captured.accepting
        { calm with state, steps := calm.steps + 1 } value
      simp only [apply, printed] at returns
      cases returns
    | halt =>
      cases returns
      refine ⟨_, ?_, alike.counted state, rfl⟩
      simp only [apply, alike.position]

/-- Where the undisturbed machine goes on, the other goes on too, or its print is refused and it
stands where it stood. -/
theorem goesOn (alike : Matches numbers calm tried) (unlimited : calm.config.maxSteps = none)
    (goes : calm.turn.2 = .goesOn next) :
    (∃ after, tried.turn.2 = .goesOn after ∧ Matches numbers next after ∧
        after.sink.failures = tried.sink.failures) ∨
      (tried.sink.calls ∈ tried.sink.numbers ∧
        ∃ again, tried.turn.2 = .returns (.error (.output .refused)) again ∧
          Matches numbers calm again ∧
          calm.RefusedAt (again.report (.error (.output .refused))) ∧
          again.sink = { tried.sink with calls := tried.sink.calls + 1 }) := by
  obtain ⟨instruction, effect, state, here, free, executed, applied⟩ := goesOn_acts goes
  rw [turn_of_acts (alike.get?_eq.trans here) (alike.free unlimited)
    ((alike.execute_eq instruction).trans executed)]
  have counted := alike.counted state
  cases effect with
  | next =>
    cases applied
    refine .inl ⟨_, rfl, ?_, rfl⟩
    rw [alike.position]
    exact counted.moved (calm.position + 1)
  | jump target =>
    cases applied
    exact .inl ⟨_, rfl, counted.moved target, rfl⟩
  | halt => cases applied
  | print value =>
    -- The undisturbed print succeeds either way; the other one only if its number is not refused.
    by_cases refuses : tried.sink.calls ∈ tried.sink.numbers
    · obtain ⟨rfl, rfl⟩ := execute_eq_print executed
      obtain ⟨again, printed, still, sink⟩ := alike.print_refuse refuses value
      refine .inr ⟨refuses, again, ?_, still, ⟨rfl, here, still.state, still.position⟩, sink⟩
      rw [← alike.state]
      exact printed
    · exact .inl (counted.print_accept refuses applied)

/-- A turn of the undisturbed machine is made by the other one after some refusals. The induction is
on how many more prints can be refused at all. -/
theorem goesOn_resumes (alike : Matches numbers calm tried) (unlimited : calm.config.maxSteps = none)
    (goes : calm.turn.2 = .goesOn next) {left : Nat}
    (bounded : ∀ number ∈ tried.sink.numbers, number < tried.sink.calls + left) :
    ∃ refusals after, tried.Resumes refusals after ∧ Matches numbers next after ∧
      (∀ refusal ∈ refusals, calm.RefusedAt refusal) ∧
      after.sink.failures = tried.sink.failures + refusals.length := by
  induction left generalizing tried with
  | zero =>
    rcases alike.goesOn unlimited goes with ⟨after, went, matched, failures⟩ | ⟨refuses, -⟩
    · exact ⟨[], after, .goesOn went (.here after), matched, by simp, failures⟩
    · -- All numbers that are refused lie behind, so this print is none of them.
      exact absurd (bounded _ refuses) (Nat.lt_irrefl _)
  | succ left ih =>
    rcases alike.goesOn unlimited goes with
      ⟨after, went, matched, failures⟩ | ⟨refuses, again, fails, still, refused, sink⟩
    · exact ⟨[], after, .goesOn went (.here after), matched, by simp, failures⟩
    · have fewer : ∀ number ∈ again.sink.numbers, number < again.sink.calls + left := by
        rw [sink]
        intro number member
        have bound := bounded number member
        simp only
        omega
      obtain ⟨refusals, after, resumes, matched, refusedAt, failures⟩ := ih still fewer
      refine ⟨_ :: refusals, after, .again fails resumes, matched, ?_, ?_⟩
      · exact List.forall_mem_cons.2 ⟨refused, refusedAt⟩
      · rw [failures, sink, Refusing.failures_refuse refuses, List.length_cons]
        omega

/-- The turns of the undisturbed machine are made by the other one, with some refusals between. -/
theorem after?_resumes (alike : Matches numbers calm tried) (unlimited : calm.config.maxSteps = none)
    {turns : Nat} (reached : calm.after? turns = some last) :
    ∃ refusals after, tried.Resumes refusals after ∧ Matches numbers last after ∧
      (∀ refusal ∈ refusals, ∃ earlier before,
        calm.after? earlier = some before ∧ before.RefusedAt refusal) ∧
      after.sink.failures = tried.sink.failures + refusals.length := by
  induction turns generalizing calm tried with
  | zero =>
    cases reached
    exact ⟨[], tried, .here tried, alike, by simp, rfl⟩
  | succ turns ih =>
    cases turned : calm.turn.2 with
    | returns result final =>
      rw [after?_succ_of_returns turned] at reached
      cases reached
    | goesOn next =>
      rw [after?_succ_of_goesOn turned] at reached
      obtain ⟨-, config, -⟩ := goesOn_frame turned
      obtain ⟨left, bounded⟩ := tried.sink.exists_bound
      obtain ⟨first, middle, resumes, matched, refusedHere, failures⟩ :=
        alike.goesOn_resumes unlimited turned bounded
      obtain ⟨later, after, onward, matchedLast, refusedLater, more⟩ :=
        ih matched (config.symm ▸ unlimited) reached
      refine ⟨first ++ later, after, resumes.trans onward, matchedLast, ?_, ?_⟩
      · intro refusal member
        rcases List.mem_append.1 member with early | late
        · exact ⟨0, calm, rfl, refusedHere refusal early⟩
        · obtain ⟨earlier, before, went, refused⟩ := refusedLater refusal late
          refine ⟨earlier + 1, before, ?_, refused⟩
          rw [after?_succ_of_goesOn turned, went]
      · rw [more, failures, List.length_append]
        omega

theorem of_create (program : Program) (config : Config) (words others : Words) (numbers : List Nat) :
    Matches numbers (create program Captured.empty config words)
      (create program ⟨Captured.empty, numbers, 0⟩ config others) :=
  ⟨rfl, rfl, rfl, rfl, rfl, rfl, rfl, rfl, rfl⟩

end Matches

/-- A run that ends when no print is refused also ends when some prints are, if the machine is called
again after each refusal: with the same result, state, position and output, after as many refusals as
there were refused prints, each of which counts one step more. -/
theorem retried_run (program : Program) (config : Config) (unlimited : config.maxSteps = none)
    (words others : Words) (numbers : List Nat) {result : RunResult} {final : Machine Captured}
    {events : Array Event}
    (returns : Run.Returns (create program Captured.empty config words) result final events) :
    (∃ (refusals : List (Report (Refusing Captured))) (last : Report (Refusing Captured)),
      (create program (Refusing.mk Captured.empty numbers 0) config others).Calls
        (refusals ++ [last]) ∧
      (∀ refusal ∈ refusals, ∃ turns before,
        (create program Captured.empty config words).after? turns = some before ∧
        RefusedAt before refusal) ∧
      refusals.length = (List.range last.sink.calls).countP (numbers.contains ·) ∧
      last.result = result ∧ (∀ failure, result ≠ .error (.output failure)) ∧
      last.state = final.state ∧ last.position = final.position ∧
      last.steps = final.steps + refusals.length ∧
      last.sink.sink.text = final.sink.text ∧ last.sink.sink.prints = final.sink.prints ∧
      last.sink.sink.characters.toList.map (·.style.isSome) =
        final.sink.characters.toList.map (·.style.isSome)) ∧
    ∀ (machine stopped : Machine (Refusing Captured)) (failure : OutputFailure)
      (log : Array Event), Run.Returns machine (.error (.output failure)) stopped log →
      ∃ turns before, machine.after? turns = some before ∧
        before.program.get? before.position = some .print ∧
        stopped.state = before.state ∧ stopped.position = before.position := by
  obtain ⟨turns, finish, reached, ends⟩ := returns_iff.1 ⟨events, returns⟩
  obtain ⟨-, kept, -⟩ := after?_frame reached
  have alike := Matches.of_create program config words others numbers
  obtain ⟨refusals, stand, resumes, matched, refused, failures⟩ :=
    alike.after?_resumes unlimited reached
  obtain ⟨after, returnsToo, same, sink⟩ :=
    matched.returns ((congrArg Config.maxSteps kept).trans unlimited) ends
  have made : after.sink.failures = refusals.length := by
    rw [sink, failures]
    exact Nat.zero_add _
  refine ⟨⟨refusals, after.report result, resumes.calls returnsToo, refused, ?_, rfl,
    result_ne_output Captured.accepting ends, same.state, same.position, ?_,
    Captured.text_eq_of_shapes same.shapes, same.prints,
    Captured.styled_eq_of_shapes same.shapes⟩, ?_⟩
  · rw [← made, Refusing.failures, same.numbers]
    rfl
  · rw [← made]
    exact same.steps
  · intro machine stopped failure log stops
    obtain ⟨turns, failed⟩ := returns_iff.1 ⟨log, stops⟩
    exact ⟨turns, endsAfter_output failed⟩

/-- The run of `-(!0)` prints once and executes five instructions; so it does when its print is refused
twice. -/
theorem retried_run_onePrint :
    ∃ (refusals : List (Report (Refusing Captured))) (last : Report (Refusing Captured)),
      (create ⟨[.decrement, .loopStart, .print, .zero, .loopEnd], rfl⟩
        (Refusing.mk Captured.empty [0, 1] 0) {} (.cyclic [])).Calls (refusals ++ [last]) ∧
      last.result = .ok .endOfProgram ∧ last.sink.sink.prints = 1 ∧
      last.steps = 5 + refusals.length := by
  have returns : Run.Returns (create ⟨[.decrement, .loopStart, .print, .zero, .loopEnd], rfl⟩
      Captured.empty {} (.cyclic [])) (.ok .endOfProgram) _ _ := ⟨6, rfl⟩
  obtain ⟨⟨refusals, last, calls, -, -, result, -, -, -, steps, -, prints, -⟩, -⟩ :=
    retried_run _ {} rfl (.cyclic []) (.cyclic []) [0, 1] returns
  exact ⟨refusals, last, calls, result, prints, steps⟩

end Machine

end Crosswire
