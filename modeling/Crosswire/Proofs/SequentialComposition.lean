/-
Module: Crosswire.Proofs.SequentialComposition
Purpose: Running one program behind another. Scans look at the whole program, but in `first ++ second`,
  with the first program well nested, every bracket keeps the partner that it has in its own program,
  or stays without one. Each program is thus embedded in the whole at an offset (`Program.Embeds`), and
  a machine on the whole keeps step with a machine on the part, everything `offset` further. Applied to
  the first program and then to the second this says what running them in sequence does.
Imports: Crosswire.Proofs.ReachableStates, Crosswire.Proofs.StepLimit
Main exports: Program.append, Program.Embeds, Program.embeds_append_left, Program.embeds_append_right,
  RunResult.shifted, execute_shifted, Machine.Beside, Machine.Beside.after?, Machine.Beside.endsAfter,
  Machine.Continues, Machine.sequential_composition
-/
import Crosswire.Proofs.ReachableStates
import Crosswire.Proofs.StepLimit

namespace Crosswire

namespace Program

/-- The instructions of one program, then those of another. -/
def append (first second : Program) : Program :=
  ⟨first.instructions ++ second.instructions, by
    rw [List.count_append, List.count_append, first.balanced, second.balanced]⟩

instance : Append Program := ⟨append⟩

theorem instructions_append (first second : Program) :
    (first ++ second).instructions = first.instructions ++ second.instructions := rfl

theorem get?_append_length (first second : Program) (position : Nat) :
    (first ++ second).get? (first.length + position) = second.get? position := by
  rw [get?, instructions_append, length, List.getElem?_append_right (Nat.le_add_right _ _),
    Nat.add_sub_cancel_left]
  rfl

end Program

/-! ### Scanning in a part of a program -/

theorem firstUnpaired_append_of_found {opening closing : Instruction} {depth offset : Nat}
    {instructions : List Instruction}
    (found : firstUnpaired opening closing depth instructions = some offset)
    (behind : List Instruction) :
    firstUnpaired opening closing depth (instructions ++ behind) = some offset := by
  fun_induction firstUnpaired opening closing depth instructions generalizing offset with
  | case1 => cases found
  | case2 depth rest ih =>
    obtain ⟨earlier, there, rfl⟩ := Option.map_eq_some_iff.1 found
    rw [List.cons_append, firstUnpaired_opening, ih there]
    rfl
  | case3 rest distinct =>
    rw [List.cons_append, firstUnpaired_closing_zero distinct]
    exact found
  | case4 rest outer distinct ih =>
    obtain ⟨earlier, there, rfl⟩ := Option.map_eq_some_iff.1 found
    rw [List.cons_append, firstUnpaired_closing_succ distinct, ih there]
    rfl
  | case5 depth instruction rest notOpening notClosing ih =>
    obtain ⟨earlier, there, rfl⟩ := Option.map_eq_some_iff.1 found
    rw [List.cons_append, firstUnpaired_other notOpening notClosing, ih there]
    rfl

namespace Pairing

/-- The stack of open loop starts, read from a later position. -/
theorem opensFrom_shifted (offset position : Nat) (opens : List Nat) (rest : List Instruction) :
    opensFrom (offset + position) (opens.map (offset + ·)) rest =
      (opensFrom position opens rest).map (offset + ·) := by
  induction rest generalizing position opens with
  | nil => rfl
  | cons instruction rest ih =>
    rcases instruction.bracket_cases with rfl | rfl | plain
    · exact ih (position + 1) (position :: opens)
    · have tail : (opens.map (offset + ·)).tail = opens.tail.map (offset + ·) := List.map_tail.symm
      rw [opensFrom, tail]
      exact ih (position + 1) opens.tail
    · rw [opensFrom_plain plain, opensFrom_plain plain]
      exact ih (position + 1) opens

end Pairing

namespace Program

/-- A part of a program stands in the whole from `offset` on, and each of its brackets has in the whole
the partner that it has in the part, or none as in the part. -/
def Embeds (offset : Nat) (whole part : Program) : Prop :=
  ∀ position instruction, part.get? position = some instruction →
    whole.get? (offset + position) = some instruction ∧
      ∀ direction : Direction, instruction = direction.bracket →
        scan direction whole.instructions (offset + position) =
          (scan direction part.instructions position).map (offset + ·)

variable {first : Program}

/-- A well-nested program leaves no loop start open. -/
theorem WellNested.opensFrom_eq_nil (nested : first.WellNested) :
    Pairing.opensFrom 0 [] first.instructions = [] := by
  rw [List.eq_nil_iff_forall_not_mem]
  intro position isOpen
  exact wellNested_iff.1 nested .forward position (mem_opensFrom_iff_unmatched.1 isOpen)

/-- The first program is embedded at the start: none of its scans runs into the second. -/
theorem embeds_append_left (nested : first.WellNested) (second : Program) :
    Embeds 0 (first ++ second) first := by
  intro position instruction here
  have inside : position < first.instructions.length := (List.getElem?_eq_some_iff.1 here).1
  rw [Nat.zero_add]
  refine ⟨?_, ?_⟩
  · rw [get?, instructions_append, List.getElem?_append_left inside]
    exact here
  · rintro direction rfl
    simp only [Nat.zero_add, Option.map_id']
    cases direction with
    | forward =>
      cases found : scan .forward first.instructions position with
      | none => exact absurd ⟨here, found⟩ (wellNested_iff.1 nested .forward position)
      | some target =>
        obtain ⟨offset, there, rfl⟩ := Option.map_eq_some_iff.1 found
        have dropped := firstUnpaired_append_of_found there
          (second.instructions.drop (position + 1 - first.instructions.length))
        rw [← List.drop_append] at dropped
        exact congrArg (Option.map (position + 1 + ·)) dropped
    | backward =>
      have taken : (first.instructions ++ second.instructions).take position =
          first.instructions.take position := List.take_append_of_le_length (Nat.le_of_lt inside)
      simp only [scan, scanBackward, instructions_append, taken]

/-- The second program is embedded behind the first: none of its scans runs into the first. -/
theorem embeds_append_right (nested : first.WellNested) (second : Program) :
    Embeds first.length (first ++ second) second := by
  intro position instruction here
  refine ⟨?_, ?_⟩
  · rw [get?_append_length]
    exact here
  · rintro direction -
    cases direction with
    | forward =>
      have dropped : (first.instructions ++ second.instructions).drop
          (first.instructions.length + position + 1) = second.instructions.drop (position + 1) := by
        rw [Nat.add_assoc]
        exact List.drop_length_add_append (position + 1)
      simp only [scan, scanForward, instructions_append, length, dropped, Option.map_map]
      congr 1
      funext offset
      simp only [Function.comp_apply]
      omega
    | backward =>
      -- What is open when the scan starts was opened in the second program.
      have opens : Pairing.opensFrom 0 []
            ((first.instructions ++ second.instructions).take (first.instructions.length + position)) =
          (Pairing.opensFrom 0 [] (second.instructions.take position)).map
            (first.instructions.length + ·) := by
        rw [List.take_length_add_append, Pairing.opensFrom_append, nested.opensFrom_eq_nil,
          Nat.zero_add]
        exact Pairing.opensFrom_shifted first.instructions.length 0 [] _
      simp only [scan, Pairing.scanBackward_eq_newest, instructions_append, length]
      rw [opens, List.getElem?_map]

end Program

/-! ### Everything further on -/

def Effect.shifted (offset : Nat) : Effect → Effect
  | .jump target => .jump (offset + target)
  | effect => effect

def Fault.shifted (offset : Nat) : Fault → Fault
  | stackUnderflow position level => stackUnderflow (offset + position) level
  | jumpOutOfRange position direction => jumpOutOfRange (offset + position) direction

def Halt.shifted (offset : Nat) : Halt → Halt
  | ended position => ended (offset + position)
  | halt => halt

def RunError.shifted (offset : Nat) : RunError → RunError
  | faulted fault => faulted (fault.shifted offset)
  | error => error

/-- The result of a run whose every position is `offset` further. -/
def RunResult.shifted (offset : Nat) : RunResult → RunResult
  | .ok halt => .ok (halt.shifted offset)
  | .error error => .error (error.shifted offset)

theorem RunResult.shifted_zero (result : RunResult) : RunResult.shifted 0 result = result := by
  rcases result with (⟨position, level⟩ | ⟨position, direction⟩) | failure | mismatch |
    (position | endOfProgram | stepLimit)
  all_goals simp [RunResult.shifted, RunError.shifted, Fault.shifted, Halt.shifted]

/-- What executing an instruction gives, `offset` further. -/
def shiftOutcome (offset : Nat) : Except Fault Effect × State → Except Fault Effect × State
  | (.ok effect, state) => (.ok (effect.shifted offset), state)
  | (.error fault, state) => (.error (fault.shifted offset), state)

theorem combineOperand_shifted (combine : Value → Value → Value) (offset position : Nat)
    (state : State) :
    combineOperand combine (offset + position) state =
      shiftOutcome offset (combineOperand combine position state) := by
  unfold combineOperand
  cases state.popValue? with
  | none => rfl
  | some popped => rfl

/-- An instruction does the same in a program where it stands further on, if a bracket's partner stands
further on as well. -/
theorem execute_shifted {offset position : Nat} {instruction : Instruction}
    {whole part : Program} {resolver another : Resolver}
    (resolved : ∀ direction : Direction, instruction = direction.bracket →
      another.resolve whole (offset + position) direction =
        (resolver.resolve part position direction).map (offset + ·)) (state : State) :
    execute instruction (offset + position) whole another state =
      shiftOutcome offset (execute instruction position part resolver state) := by
  rcases instruction.bracket_or_plain with ⟨direction, rfl⟩ | plain
  · rw [execute_bracket, execute_bracket]
    split
    · simp only [takeJump, resolved direction rfl]
      cases resolver.resolve part position direction with
      | none => rfl
      | some target => rfl
    · rfl
  · cases instruction with
    | add => exact combineOperand_shifted Value.add offset position state
    | nand => exact combineOperand_shifted Value.nand offset position state
    | push =>
      simp only [execute]
      cases state.mode.routing.pushPop <;> rfl
    | pop =>
      simp only [execute]
      cases state.mode.routing.pushPop with
      | inner => exact combineOperand_shifted (fun operand _ => operand) offset position state
      | outer =>
        cases state.popStack? with
        | none => rfl
        | some popped => rfl
    | loopStart => cases plain
    | loopEnd => cases plain
    | _ => rfl

/-! ### Two machines in step -/

namespace Machine

variable {σ : Type} [Sink σ]

/-- The machine `whole` does what the machine `part` does, `offset` further on in its program and with
`extra` more steps. Both have made the same prints since they were side by side first, `whole` with the
renderer and the sink `before` and `part` with those of `start`. -/
structure Beside (offset extra : Nat) (before start : Renderer × σ) (whole part : Machine σ) :
    Prop where
  embeds : Program.Embeds offset whole.program part.program
  wholeUnlimited : whole.config.maxSteps = none
  partUnlimited : part.config.maxSteps = none
  state : whole.state = part.state
  position : whole.position = offset + part.position
  steps : whole.steps = extra + part.steps
  prints : ∃ printed : List Print,
    (whole.renderer, whole.sink) = deliver printed before.1 before.2 ∧
      (part.renderer, part.sink) = deliver printed start.1 start.2

namespace Beside

variable {offset extra : Nat} {before start : Renderer × σ}
  {whole part next last final : Machine σ} {result : RunResult} {instruction : Instruction}

theorem free (beside : Beside offset extra before start whole part) : whole.limitReached = false := by
  simp only [limitReached, beside.wholeUnlimited]

theorem here (beside : Beside offset extra before start whole part)
    (inside : part.program.get? part.position = some instruction) :
    whole.program.get? whole.position = some instruction := by
  rw [beside.position]
  exact (beside.embeds _ _ inside).1

theorem execute_eq (beside : Beside offset extra before start whole part)
    (inside : part.program.get? part.position = some instruction) :
    execute instruction whole.position whole.program whole.resolver whole.state =
      shiftOutcome offset
        (execute instruction part.position part.program part.resolver part.state) := by
  rw [beside.position, beside.state]
  apply execute_shifted
  rintro direction rfl
  obtain ⟨there, partners⟩ := beside.embeds _ _ inside
  rw [whole.resolver_eq, part.resolver_eq, Resolver.resolve_bracket there,
    Resolver.resolve_bracket inside]
  exact partners direction rfl

/-- Both machines count an executed instruction. -/
theorem counted (beside : Beside offset extra before start whole part) (state : State) :
    Beside offset extra before start { whole with state, steps := whole.steps + 1 }
      { part with state, steps := part.steps + 1 } :=
  { beside with
    state := rfl
    steps := by
      rw [beside.steps]
      exact Nat.add_assoc _ _ _ }

/-- Both machines move to positions that are `offset` apart. -/
theorem moved (beside : Beside offset extra before start whole part) {there position : Nat}
    (apart : there = offset + position) :
    Beside offset extra before start { whole with position := there } { part with position } :=
  { beside with position := apart }

/-- Both machines make the same print. -/
theorem printed (accepting : Sink.Accepting σ) (beside : Beside offset extra before start whole part)
    (value : Value) :
    ∃ after next, whole.print value = .goesOn after ∧ part.print value = .goesOn next ∧
      Beside offset extra before start after next := by
  refine ⟨_, _, print_of_accepting accepting whole value, print_of_accepting accepting part value, ?_⟩
  obtain ⟨printed, wholePrinted, partPrinted⟩ := beside.prints
  have wholeRenderer := congrArg Prod.fst wholePrinted
  have wholeSink := congrArg Prod.snd wholePrinted
  have partRenderer := congrArg Prod.fst partPrinted
  have partSink := congrArg Prod.snd partPrinted
  refine { beside with position := ?_, prints := ⟨printed ++ [⟨value, part.state.styled⟩], ?_, ?_⟩ }
  · rw [beside.position]
    exact Nat.add_assoc _ _ _
  · rw [deliver_append, ← wholeRenderer, ← wholeSink, ← beside.state]
    rfl
  · rw [deliver_append, ← partRenderer, ← partSink]
    rfl

/-- Where `part` goes on, `whole` goes on. -/
theorem goesOn (accepting : Sink.Accepting σ) (beside : Beside offset extra before start whole part)
    (goes : part.turn.2 = .goesOn next) :
    ∃ after, whole.turn.2 = .goesOn after ∧ Beside offset extra before start after next := by
  obtain ⟨instruction, effect, state, inside, -, executed, applied⟩ := goesOn_acts goes
  have executedToo := beside.execute_eq inside
  rw [executed] at executedToo
  rw [turn_of_acts (beside.here inside) beside.free executedToo]
  have counted := beside.counted state
  cases effect with
  | next =>
    cases applied
    refine ⟨_, rfl, counted.moved ?_⟩
    rw [beside.position]
    exact Nat.add_assoc _ _ _
  | jump target =>
    cases applied
    exact ⟨_, rfl, counted.moved rfl⟩
  | halt => cases applied
  | print value =>
    obtain ⟨after, other, printed, printedToo, along⟩ := counted.printed accepting value
    obtain rfl : other = next := by
      have same := printedToo.symm.trans applied
      cases same
      rfl
    exact ⟨after, printed, along⟩

/-- Where `part` returns from inside its program, `whole` returns the same, further on. -/
theorem returns (accepting : Sink.Accepting σ) (beside : Beside offset extra before start whole part)
    (inside : part.program.get? part.position = some instruction)
    (returns : part.turn.2 = .returns result final) :
    ∃ after, whole.turn.2 = .returns (RunResult.shifted offset result) after ∧
      Beside offset extra before start after final := by
  cases stops_of_returns returns with
  | outside outside =>
    rw [outside] at inside
    cases inside
  | limited reached => simp only [limitReached, beside.partUnlimited, Bool.false_eq_true] at reached
  | faults here executed =>
    have executedToo := beside.execute_eq here
    rw [executed] at executedToo
    rw [turn_of_faults (beside.here here) beside.free executedToo]
    exact ⟨_, rfl, { beside with state := rfl }⟩
  | @halts _ state here executed =>
    have executedToo := beside.execute_eq here
    rw [executed] at executedToo
    refine ⟨_, ?_, beside.counted state⟩
    rw [turn_of_acts (beside.here here) beside.free executedToo]
    simp only [Effect.shifted, apply, beside.position]
    rfl
  | @refused _ value state _ _ here executed printed =>
    obtain ⟨_, _, -, goes, -⟩ := (beside.counted state).printed accepting value
    rw [printed] at goes
    cases goes

theorem after? (accepting : Sink.Accepting σ) (beside : Beside offset extra before start whole part)
    {turns : Nat} (reached : part.after? turns = some last) :
    ∃ there, whole.after? turns = some there ∧ Beside offset extra before start there last := by
  induction turns generalizing whole part with
  | zero =>
    cases reached
    exact ⟨whole, rfl, beside⟩
  | succ turns ih =>
    cases turned : part.turn.2 with
    | returns result final =>
      rw [after?_succ_of_returns turned] at reached
      cases reached
    | goesOn next =>
      rw [after?_succ_of_goesOn turned] at reached
      obtain ⟨after, went, along⟩ := beside.goesOn accepting turned
      rw [after?_succ_of_goesOn went]
      exact ih along reached

/-- A run of `part` ends in the same way in the whole, provided that the whole has an end where `part`
came to its end. -/
theorem endsAfter (accepting : Sink.Accepting σ)
    (beside : Beside offset extra before start whole part) {turns : Nat}
    (ends : part.EndsAfter turns result final)
    (fits : result = .ok .endOfProgram → ∀ position,
      part.program.get? position = none → whole.program.get? (offset + position) = none) :
    ∃ after, whole.EndsAfter turns (RunResult.shifted offset result) after ∧
      Beside offset extra before start after final := by
  obtain ⟨last, reached, returned⟩ := ends
  obtain ⟨there, reachedToo, along⟩ := beside.after? accepting reached
  cases here : last.program.get? last.position with
  | none =>
    rw [turn_of_outside here] at returned
    cases returned
    obtain ⟨program, -, -⟩ := after?_frame reached
    obtain ⟨programToo, -, -⟩ := after?_frame reachedToo
    have outside : there.program.get? there.position = none := by
      rw [program] at here
      rw [programToo, along.position]
      exact fits rfl _ here
    refine ⟨there, ⟨there, reachedToo, ?_⟩, along⟩
    rw [turn_of_outside outside]
    rfl
  | some instruction =>
    obtain ⟨after, returnedToo, still⟩ := along.returns accepting here returned
    exact ⟨after, ⟨there, reachedToo, returnedToo⟩, still⟩

/-- If a call of `part` never returns, neither does one of `whole`. -/
theorem endless (accepting : Sink.Accepting σ) (beside : Beside offset extra before start whole part)
    (endless : ¬ ∃ result final events, Run.Returns part result final events) :
    ¬ ∃ result final events, Run.Returns whole result final events := by
  rintro ⟨result, final, events, returns⟩
  obtain ⟨turns, last, reached, returned⟩ := returns_iff.1 ⟨events, returns⟩
  rcases part.after?_or_endsAfter (turns + 1) with ⟨there, goes⟩ | ⟨fewer, other, another, -, ends⟩
  · -- Beside a part that goes on, the whole goes on beyond the turn that returned.
    obtain ⟨beyond, goesToo, -⟩ := beside.after? accepting goes
    rw [after?_add, reached, Option.bind_some, after?_succ_of_returns returned] at goesToo
    cases goesToo
  · obtain ⟨log, returnsToo⟩ := returns_iff.2 ⟨fewer, ends⟩
    exact endless ⟨other, another, log, returnsToo⟩

end Beside

/-- A run that reaches the end of its program stands there. -/
theorem endsAfter_endOfProgram {machine final : Machine σ} {turns : Nat}
    (ends : machine.EndsAfter turns (.ok .endOfProgram) final) :
    machine.after? turns = some final ∧ final.program.get? final.position = none := by
  obtain ⟨last, reached, returned⟩ := ends
  cases stops_of_returns returned with
  | outside outside => exact ⟨reached, outside⟩

/-! ### One program behind another -/

/-- The machine `here`, on two programs in sequence, continues the machine `final`, which the first
program has left, as the machine `there` runs the second program alone into the sink `other`. -/
structure Continues (first : Program) (final : Machine σ) (other : σ) (there here : Machine σ) :
    Prop where
  state : here.state = there.state
  position : here.position = first.length + there.position
  steps : here.steps = final.steps + there.steps
  printed : ∃ printed : List Print, ∀ text, Sink.Shows text →
    text here.sink = text final.sink ++ printed.flatMap (·.value.glyphs) ∧
      text there.sink = text other ++ printed.flatMap (·.value.glyphs)

end Machine

theorem Sink.Shows.text_deliver {σ : Type} [Sink σ] {text : σ → List Char} (shows : Sink.Shows text)
    (printed : List Print) (renderer : Renderer) (sink : σ) :
    text (deliver printed renderer sink).2 = text sink ++ printed.flatMap (·.value.glyphs) := by
  induction printed generalizing renderer sink with
  | nil => exact (List.append_nil _).symm
  | cons print later ih =>
    rw [List.flatMap_cons, ← List.append_assoc, ← renderer.map_character_render print.value print.styled,
      ← shows]
    exact ih _ _

namespace Machine

variable {σ : Type} [Sink σ]

theorem Beside.continues {first : Program} {extra : Nat} {final whole part : Machine σ} {other : σ}
    {renderer : Renderer}
    (beside : Beside first.length extra (final.renderer, final.sink) (renderer, other) whole part)
    (paid : extra = final.steps) : Continues first final other part whole := by
  obtain ⟨printed, wholePrinted, partPrinted⟩ := beside.prints
  have wholeSink := congrArg Prod.snd wholePrinted
  have partSink := congrArg Prod.snd partPrinted
  refine ⟨beside.state, beside.position, paid ▸ beside.steps, printed, ?_⟩
  intro text shows
  constructor
  · rw [← shows.text_deliver printed final.renderer final.sink, ← wholeSink]
  · rw [← shows.text_deliver printed renderer other, ← partSink]

/-- Side by side from the same renderer and sink, the machines have the same renderer and sink. -/
theorem Beside.same_sink {offset extra : Nat} {before : Renderer × σ} {whole part : Machine σ}
    (beside : Beside offset extra before before whole part) :
    whole.renderer = part.renderer ∧ whole.sink = part.sink := by
  obtain ⟨printed, wholePrinted, partPrinted⟩ := beside.prints
  have same := wholePrinted.trans partPrinted.symm
  exact ⟨congrArg Prod.fst same, congrArg Prod.snd same⟩

section Composition

variable {first second : Program} {sink : σ} {config : Config} {words : Words}

/-- The joined programs start beside the first one. -/
theorem beside_first (nested : first.WellNested) (second : Program) (sink : σ)
    (unlimited : config.maxSteps = none) (words : Words) :
    let start := ((create first sink config words).renderer, sink)
    Beside 0 0 start start (create (first ++ second) sink config words)
      (create first sink config words) where
  embeds := Program.embeds_append_left nested second
  wholeUnlimited := unlimited
  partUnlimited := unlimited
  state := rfl
  position := rfl
  steps := rfl
  prints := ⟨[], rfl, rfl⟩

/-- Once the first program has come to its end, the joined programs are beside the second one. -/
theorem beside_second (accepting : Sink.Accepting σ) (nested : first.WellNested) (second : Program)
    (unlimited : config.maxSteps = none) {turns : Nat} {final : Machine σ}
    (ends : (create first sink config words).EndsAfter turns (.ok .endOfProgram) final) (other : σ)
    (others : Words) :
    ∃ here, (create (first ++ second) sink config words).after? final.steps = some here ∧
      here.program = first ++ second ∧
      Beside first.length final.steps (final.renderer, final.sink)
        ((create second other config others).renderer, other) here
        { create second other config others with state := final.state } := by
  obtain ⟨reached, outside⟩ := endsAfter_endOfProgram ends
  obtain ⟨program, -, steps⟩ := after?_frame reached
  obtain ⟨here, reachedToo, along⟩ :=
    (beside_first nested second sink unlimited words).after? accepting reached
  obtain ⟨renderer, same⟩ := along.same_sink
  obtain ⟨programToo, -, -⟩ := after?_frame reachedToo
  have spent : final.steps = turns := steps.trans (Nat.zero_add _)
  -- The first program ends right behind its last instruction.
  have position : final.position = first.length := by
    have most : ((create first sink config words).later turns).position ≤ first.length :=
      position_later (Nat.zero_le _) turns
    rw [later_of_after? reached] at most
    rw [program] at outside
    exact Nat.le_antisymm most (List.getElem?_eq_none_iff.1 outside)
  refine ⟨here, spent ▸ reachedToo, programToo, ?_⟩
  constructor
  · rw [programToo]
    exact Program.embeds_append_right nested second
  · exact along.wholeUnlimited
  · exact unlimited
  · exact along.state
  · rw [along.position, position]
    exact Nat.zero_add _
  · rw [along.steps]
    exact Nat.zero_add _
  · refine ⟨[], ?_, rfl⟩
    rw [renderer, same]
    rfl

/-- Running `first ++ second`, with `first` well nested, is running `first`, and if that comes to its
end, running `second` from the state that it leaves. -/
theorem sequential_composition (accepting : Sink.Accepting σ) (first second : Program)
    (nested : first.WellNested) (sink : σ) (config : Config) (unlimited : config.maxSteps = none)
    (words : Words) :
    let alone := create first sink config words
    let joined := create (first ++ second) sink config words
    -- If the first program comes to its end, the second one runs from the state left by it.
    (∀ final events, Run.Returns alone (.ok .endOfProgram) final events →
      ∀ (other : σ) (others : Words),
        let rest : Machine σ := { create second other config others with state := final.state }
        (∀ turns there, rest.after? turns = some there →
          ∃ here, joined.after? (final.steps + turns) = some here ∧
            Continues first final other there here) ∧
        (∀ result there log, Run.Returns rest result there log →
          ∃ here events, Run.Returns joined (RunResult.shifted first.length result) here events ∧
            Continues first final other there here) ∧
        ((¬ ∃ result there log, Run.Returns rest result there log) →
          ¬ ∃ result here events, Run.Returns joined result here events)) ∧
    -- If the first program stops or faults, that is all.
    (∀ result final log, Run.Returns alone result final log → result ≠ .ok .endOfProgram →
      ∃ here events, Run.Returns joined result here events ∧ here.state = final.state ∧
        here.position = final.position ∧ here.steps = final.steps ∧ here.sink = final.sink) ∧
    -- If the first program does not end, neither do both.
    ((¬ ∃ result final log, Run.Returns alone result final log) →
      ¬ ∃ result here events, Run.Returns joined result here events) := by
  intro alone joined
  have atFirst := beside_first nested second sink unlimited words
  refine ⟨?_, ?_, ?_⟩
  · intro final events returns other others rest
    obtain ⟨turns, ends⟩ := returns_iff.1 ⟨events, returns⟩
    obtain ⟨here, reached, program, beside⟩ :=
      beside_second accepting nested second unlimited ends other others
    refine ⟨?_, ?_, ?_⟩
    · intro turns there goes
      obtain ⟨later, goesToo, along⟩ := beside.after? accepting goes
      exact ⟨later, after?_trans reached goesToo, along.continues rfl⟩
    · intro result there log restReturns
      obtain ⟨more, restEnds⟩ := returns_iff.1 ⟨log, restReturns⟩
      have fits (_ : result = .ok .endOfProgram) (position : Nat)
          (outside : rest.program.get? position = none) :
          here.program.get? (first.length + position) = none := by
        rw [program, Program.get?_append_length]
        exact outside
      obtain ⟨after, afterEnds, along⟩ := beside.endsAfter accepting restEnds fits
      obtain ⟨events, joinedReturns⟩ := returns_iff.2 ⟨_, afterEnds.prepend reached⟩
      exact ⟨after, events, joinedReturns, along.continues rfl⟩
    · rintro endless ⟨result, after, events, joinedReturns⟩
      obtain ⟨_, joinedEnds⟩ := returns_iff.1 ⟨events, joinedReturns⟩
      obtain ⟨more, -, hereEnds⟩ := joinedEnds.remaining reached
      obtain ⟨log, hereReturns⟩ := returns_iff.2 ⟨more, hereEnds⟩
      exact beside.endless accepting endless ⟨result, after, log, hereReturns⟩
  · intro result final log returns short
    obtain ⟨turns, ends⟩ := returns_iff.1 ⟨log, returns⟩
    obtain ⟨here, endsToo, along⟩ :=
      atFirst.endsAfter accepting ends fun ended => absurd ended short
    rw [RunResult.shifted_zero] at endsToo
    obtain ⟨events, joinedReturns⟩ := returns_iff.2 ⟨turns, endsToo⟩
    obtain ⟨-, sameSink⟩ := along.same_sink
    have position := along.position
    have steps := along.steps
    rw [Nat.zero_add] at position steps
    exact ⟨here, events, joinedReturns, along.state, position, steps, sameSink⟩
  · exact atFirst.endless accepting

/-- Behind `-(!0)`, which prints once and leaves zero, the program `)(` still falls through its loop end
and faults at its loop start, five instructions further on. -/
theorem sequential_composition_reversed :
    ∃ here events,
      Run.Returns (create (⟨[.decrement, .loopStart, .print, .zero, .loopEnd], rfl⟩ ++
          ⟨[.loopEnd, .loopStart], rfl⟩) Captured.empty {} (.cyclic []))
        (.error (.faulted (.jumpOutOfRange 6 .forward))) here events ∧
      here.position = 6 ∧ here.steps = 6 := by
  have nested : Program.WellNested ⟨[.decrement, .loopStart, .print, .zero, .loopEnd], rfl⟩ :=
    Block.wellNested_program
      (.plain .decrement rfl (.loop (.plain .print rfl (.plain .zero rfl .done)) .done))
  have returns : Run.Returns (create ⟨[.decrement, .loopStart, .print, .zero, .loopEnd], rfl⟩
      Captured.empty {} (.cyclic [])) (.ok .endOfProgram) _ _ := ⟨6, rfl⟩
  obtain ⟨continued, -, -⟩ := sequential_composition Captured.accepting _
    ⟨[.loopEnd, .loopStart], rfl⟩ nested Captured.empty {} rfl (.cyclic [])
  obtain ⟨-, ended, -⟩ := continued _ _ returns Captured.empty (.cyclic [])
  have faults : Run.Returns
      { create ⟨[.loopEnd, .loopStart], rfl⟩ Captured.empty {} (.cyclic []) with state := .initial }
      (.error (.faulted (.jumpOutOfRange 1 .forward))) _ _ := ⟨2, rfl⟩
  obtain ⟨here, events, joined, along⟩ := ended _ _ _ faults
  exact ⟨here, events, joined, along.position, along.steps⟩

end Composition

end Machine

end Crosswire
