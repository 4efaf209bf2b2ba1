/-
Module: Crosswire.Proofs.CountedLoops
Purpose: Loops that count down. A loop whose body leaves the accumulator alone, cannot fail and ends with
  a decrement runs as often as the accumulator can be decremented until it lets no loop run: a word
  modulo 2^32 times, so that a negative one goes once around, `true` once and `false` not at all. The
  loop may stand anywhere in any program. One round is passing the body and meeting the loop end with the
  predecessor of the accumulator; all rounds follow by induction on how many are left.
Imports: Crosswire.Proofs.StraightLine
Main exports: Value.rounds, Value.countdown, Value.exhausted, Value.rounds_decrement,
  Instruction.isSteady, passes_of_steady, roundSights, Machine.performs_round,
  Machine.performs_countdown, Machine.performs_counted, Machine.counted_loop
-/
import Crosswire.Proofs.StraightLine

namespace Crosswire

/-! ### Counting down -/

namespace Value

/-- How often a value can be decremented until it is zero or `false`: a word modulo 2^32 times. -/
def rounds : Value → Nat
  | integer word => (word.toInt % 4294967296).toNat
  | boolean true => 1
  | boolean false => 0

/-- The values that counting down goes through, as long as a loop runs with them. -/
def countdown : Value → List Value
  | integer word =>
    (List.range (integer word).rounds).map fun passed => integer (word - .ofNat passed)
  | boolean true => [boolean true]
  | boolean false => []

/-- What counting down comes to. -/
def exhausted : Value → Value
  | integer _ => integer 0
  | boolean _ => boolean false

variable {value : Value} {count : Nat}

@[simp] theorem length_countdown (value : Value) : value.countdown.length = value.rounds := by
  rcases value with word | (_ | _)
  · simp [countdown]
  · rfl
  · rfl

theorem rounds_integer_eq_zero_iff {word : Int32} : (integer word).rounds = 0 ↔ word = 0 := by
  have low := word.le_toInt
  have high := word.toInt_lt
  rw [← Int32.toInt_inj, Int32.toInt_zero, rounds]
  omega

/-- No round is left exactly if the value lets no loop run. -/
theorem rounds_eq_zero_iff : value.rounds = 0 ↔ value.isTruthy = false := by
  rcases value with word | (_ | _)
  · rw [rounds_integer_eq_zero_iff, isTruthy, bne_eq_false_iff_eq]
  · exact ⟨fun _ => rfl, fun _ => rfl⟩
  · exact ⟨nofun, nofun⟩

theorem eq_exhausted_of_rounds_eq_zero (none : value.rounds = 0) : value = value.exhausted := by
  rcases value with word | (_ | _)
  · rw [rounds_integer_eq_zero_iff.1 none]
    rfl
  · rfl
  · cases none

/-- Every decrement takes a round off, also the one that wraps around. -/
theorem rounds_decrement (more : value.rounds = count + 1) : value.decrement.rounds = count := by
  rcases value with word | (_ | _)
  · have wrapped : (word - 1).toInt % 4294967296 = (word.toInt - 1) % 4294967296 := by
      rw [Int32.toInt_sub, Int32.toInt_one]
      exact Int.bmod_emod
    rw [rounds] at more
    rw [decrement, rounds, wrapped]
    omega
  · cases more
  · exact Nat.succ.inj more

theorem exhausted_decrement (more : value.rounds = count + 1) :
    value.decrement.exhausted = value.exhausted := by
  rcases value with word | (_ | _)
  · rfl
  · cases more
  · rfl

theorem countdown_of_rounds_eq_zero (none : value.rounds = 0) : value.countdown = [] := by
  rw [← List.length_eq_zero_iff, length_countdown, none]

/-- Counting down begins with the value and goes on with its predecessor. -/
theorem countdown_of_rounds_eq_succ (more : value.rounds = count + 1) :
    value.countdown = value :: value.decrement.countdown := by
  have fewer := rounds_decrement more
  rcases value with word | (_ | _)
  · rw [decrement] at fewer
    rw [decrement, countdown, countdown, more, fewer, List.range_succ_eq_map, List.map_cons,
      List.map_map]
    congr 1
    · exact congrArg integer (Int32.sub_zero word)
    · apply List.map_congr_left
      intro passed _
      simp only [Function.comp_apply, Nat.succ_eq_add_one]
      rw [Nat.add_comm, Int32.ofNat_add, Int32.sub_sub]
      rfl
  · cases more
  · rfl

/-- A word is counted down to one. -/
theorem getLast?_countdown {word : Int32} (busy : word ≠ 0) :
    (integer word).countdown.getLast? = some (integer 1) := by
  obtain ⟨count, more⟩ := Nat.exists_eq_succ_of_ne_zero (mt rounds_integer_eq_zero_iff.1 busy)
  induction count generalizing word with
  | zero =>
    have none := rounds_decrement more
    have last : word = 1 := by
      have gone : word - 1 = 0 := rounds_integer_eq_zero_iff.1 none
      rw [← Int32.sub_add_cancel word 1, gone, Int32.zero_add]
    rw [countdown_of_rounds_eq_succ more, countdown_of_rounds_eq_zero none, last]
    rfl
  | succ count ih =>
    have fewer := rounds_decrement more
    have still : word - 1 ≠ 0 := by
      intro gone
      rw [decrement, rounds_integer_eq_zero_iff.2 gone] at fewer
      cases fewer
    have onward := ih still fewer
    rw [countdown_of_rounds_eq_succ more, List.getLast?_cons, decrement, onward]
    rfl

end Value

/-! ### Bodies -/

/-- The instructions that leave the accumulator alone and can always be executed. -/
def Instruction.isSteady : Instruction → Bool
  | .print | .rotateRight | .rotateLeft | .push | .pushTrue | .pushFalse | .discourage | .modeOneD
  | .modeTwoD => true
  | _ => false

theorem Instruction.isBracket_of_isSteady {instruction : Instruction}
    (steady : instruction.isSteady = true) : instruction.isBracket = false := by
  cases instruction <;> first | rfl | cases steady

theorem execute_steady {instruction : Instruction} (steady : instruction.isSteady = true)
    (position : Nat) (state : State) :
    ∃ effect next, execute instruction position .empty .scanning state = (.ok effect, next) ∧
      effect ≠ .halt ∧ next.accumulator = state.accumulator := by
  cases instruction with
  | print => exact ⟨_, _, rfl, nofun, rfl⟩
  | rotateRight => exact ⟨_, _, rfl, nofun, rfl⟩
  | rotateLeft => exact ⟨_, _, rfl, nofun, rfl⟩
  | push =>
    simp only [execute]
    cases state.mode.routing.pushPop <;> exact ⟨_, _, rfl, nofun, rfl⟩
  | pushTrue => exact ⟨_, _, rfl, nofun, rfl⟩
  | pushFalse => exact ⟨_, _, rfl, nofun, rfl⟩
  | discourage => exact ⟨_, _, rfl, nofun, rfl⟩
  | modeOneD => exact ⟨_, _, rfl, nofun, rfl⟩
  | modeTwoD => exact ⟨_, _, rfl, nofun, rfl⟩
  | _ => cases steady

theorem State.idle_iff_rounds {state : State} : state.Idle ↔ state.accumulator.rounds = 0 := by
  rw [idle_iff, Value.rounds_eq_zero_iff]

theorem State.not_idle_of_rounds {state : State} {count : Nat}
    (more : state.accumulator.rounds = count + 1) : ¬ state.Idle := by
  rw [idle_iff_rounds, more]
  exact Nat.succ_ne_zero count

/-- What is seen of a step: where it was taken, the instruction, and the accumulator that it met. -/
def Step.sight (step : Step) : Nat × Instruction × Value :=
  (step.position, step.instruction, step.state.accumulator)

/-- A steady body is passed from any state, and every instruction of it meets the same accumulator. -/
theorem passes_of_steady {body : List Instruction}
    (steady : ∀ instruction ∈ body, instruction.isSteady = true) (position : Nat) (state : State) :
    ∃ steps next, Passes position body state steps next ∧
      next.accumulator = state.accumulator ∧
      steps.map Step.sight = body.mapIdx fun offset instruction =>
        (position + offset, instruction, state.accumulator) := by
  induction body generalizing position state with
  | nil => exact ⟨[], state, .done, rfl, rfl⟩
  | cons instruction rest ih =>
    have first := steady instruction (List.mem_cons_self ..)
    obtain ⟨effect, middle, executed, onward, same⟩ := execute_steady first position state
    obtain ⟨steps, next, passes, sameLater, sights⟩ :=
      ih (fun other member => steady other (List.mem_cons_of_mem _ member)) (position + 1) middle
    refine ⟨_, next, .step (Instruction.isBracket_of_isSteady first) executed onward passes,
      sameLater.trans same, ?_⟩
    rw [List.map_cons, sights, List.mapIdx_cons, same]
    congr 2
    funext offset other
    rw [Nat.add_assoc, Nat.add_comm 1 offset]

/-- The steps of a body that is passed and of the decrement behind it. -/
theorem passes_round {body : List Instruction}
    (steady : ∀ instruction ∈ body, instruction.isSteady = true) (position : Nat) (state : State) :
    ∃ steps next, Passes position (body ++ [.decrement]) state steps next ∧
      next.accumulator = state.accumulator.decrement ∧
      steps.map Step.sight =
        (body.mapIdx fun offset instruction => (position + offset, instruction, state.accumulator)) ++
          [(position + body.length, .decrement, state.accumulator)] := by
  obtain ⟨steps, middle, passes, same, sights⟩ := passes_of_steady steady position state
  have last : Passes (position + body.length) [.decrement] middle
      [⟨position + body.length, .decrement, middle, .next⟩]
      { middle with accumulator := middle.accumulator.decrement } :=
    .step rfl rfl nofun .done
  refine ⟨_, _, passes.append last, congrArg Value.decrement same, ?_⟩
  rw [List.map_append, sights, ← same]
  rfl

/-- What is seen of one round of a counted loop that starts at a position. -/
def roundSights (start : Nat) (body : List Instruction) (value : Value) :
    List (Nat × Instruction × Value) :=
  (start, .loopStart, value) ::
    (body.mapIdx fun offset instruction => (start + 1 + offset, instruction, value)) ++
    [(start + 1 + body.length, .decrement, value),
      (start + body.length + 2, .loopEnd, value.decrement)]

theorem length_roundSights (start : Nat) (body : List Instruction) (value : Value) :
    (roundSights start body value).length = body.length + 3 := by
  simp [roundSights]

namespace Machine

variable {σ : Type} [Sink σ] {machine : Machine σ} {before body behind : List Instruction}
  {block : Block}

/-! ### Rounds -/

/-- The body of a counted loop, once around: from the loop start to the loop end. -/
theorem performs_iteration (accepting : Sink.Accepting σ)
    (steady : ∀ instruction ∈ body, instruction.isSteady = true)
    (flattened : block.flatten = body ++ [.decrement])
    (holds : machine.Holds before (.loop block .done) behind)
    (here : machine.position = before.length) (busy : ¬ machine.state.Idle) :
    ∃ steps next printed, next = machine.state.through (body ++ [.decrement]) ∧
      next.accumulator = machine.state.accumulator.decrement ∧
      machine.Performs steps
        (machine.advanced next (before.length + 1 + block.size) printed steps.length) ∧
      steps.map Step.sight ++
          [(before.length + body.length + 2, .loopEnd, machine.state.accumulator.decrement)] =
        roundSights before.length body machine.state.accumulator := by
  obtain ⟨effect, entered⟩ :=
    Performs.of_goesOn (turn_enter holds here busy) (holds.get?_loopStart here)
  obtain ⟨steps, next, passes, counted, sights⟩ :=
    passes_round steady (before.length + 1) machine.state
  have stands : machine.program.instructions =
      (before ++ [.loopStart]) ++ (body ++ [.decrement]) ++ (.loopEnd :: behind) := by
    rw [holds.instructions, ← flattened]
    simp [Block.flatten]
  have exit : (before ++ [Instruction.loopStart]).length + (body ++ [Instruction.decrement]).length =
      before.length + 1 + block.size := by
    rw [Block.size, flattened, List.length_append, List.length_singleton]
  have performs := entered.trans
    (performs_of_passes accepting passes stands holds.unlimited (by simp) (by simp) rfl)
  rw [exit, advanced_advanced, Nat.add_comm 1] at performs
  refine ⟨_, next, _, passes.final_eq_through, counted, performs, ?_⟩
  rw [List.map_append, sights, here]
  simp [roundSights, Step.sight]

/-- The end of a loop leads out of it if no round is left, and back to its start otherwise. -/
theorem turn_loopEnd (holds : machine.Holds before (.loop block .done) behind)
    (there : machine.position = before.length + 1 + block.size) :
    machine.turn.2 = .goesOn (machine.advanced machine.state
      (if machine.state.accumulator.rounds = 0 then before.length + block.size + 2
        else before.length) [] 1) := by
  split
  · next none => exact turn_leave holds there (State.idle_iff_rounds.2 none)
  · next some => exact turn_repeat holds there (mt State.idle_iff_rounds.1 some)

/-- One round of a counted loop, both brackets included. -/
theorem performs_round (accepting : Sink.Accepting σ)
    (steady : ∀ instruction ∈ body, instruction.isSteady = true)
    (flattened : block.flatten = body ++ [.decrement])
    (holds : machine.Holds before (.loop block .done) behind)
    (here : machine.position = before.length) (busy : ¬ machine.state.Idle) :
    ∃ steps next printed, next = machine.state.through (body ++ [.decrement]) ∧
      next.accumulator = machine.state.accumulator.decrement ∧
      machine.Performs steps (machine.advanced next
        (if next.accumulator.rounds = 0 then before.length + block.size + 2 else before.length)
        printed steps.length) ∧
      steps.map Step.sight = roundSights before.length body machine.state.accumulator := by
  obtain ⟨steps, next, printed, through, counted, performs, sights⟩ :=
    performs_iteration accepting steady flattened holds here busy
  have holdsThere := holds.advanced next (before.length + 1 + block.size) printed steps.length
  obtain ⟨effect, last⟩ :=
    Performs.of_goesOn (turn_loopEnd holdsThere rfl) (holdsThere.get?_loopEnd rfl)
  have whole := performs.trans last
  rw [advanced_advanced] at whole
  refine ⟨steps ++ [⟨before.length + 1 + block.size, .loopEnd, next, effect⟩], next, printed ++ [],
    through, counted, ?_, ?_⟩
  · rw [List.length_append]
    exact whole
  · have size : before.length + 1 + block.size = before.length + body.length + 2 := by
      rw [Block.size, flattened, List.length_append, List.length_singleton]
      omega
    rw [← sights, List.map_append, ← counted, size]
    rfl

/-- All rounds of a counted loop. -/
theorem performs_countdown (accepting : Sink.Accepting σ)
    (steady : ∀ instruction ∈ body, instruction.isSteady = true)
    (flattened : block.flatten = body ++ [.decrement])
    (holds : machine.Holds before (.loop block .done) behind)
    (here : machine.position = before.length) {count : Nat}
    (more : machine.state.accumulator.rounds = count + 1) :
    ∃ steps final printed,
      final = (fun state => State.through state (body ++ [.decrement]))^[count + 1] machine.state ∧
      final.accumulator = machine.state.accumulator.exhausted ∧
      machine.Performs steps
        (machine.advanced final (before.length + block.size + 2) printed steps.length) ∧
      steps.map Step.sight =
        machine.state.accumulator.countdown.flatMap (roundSights before.length body) := by
  induction count generalizing machine with
  | zero =>
    obtain ⟨steps, next, printed, through, counted, performs, sights⟩ :=
      performs_round accepting steady flattened holds here (State.not_idle_of_rounds more)
    have none := Value.rounds_decrement more
    rw [counted, if_pos none] at performs
    refine ⟨steps, next, printed, through, ?_, performs, ?_⟩
    · rw [counted, Value.eq_exhausted_of_rounds_eq_zero none, Value.exhausted_decrement more]
    · rw [sights, Value.countdown_of_rounds_eq_succ more, Value.countdown_of_rounds_eq_zero none,
        List.flatMap_singleton]
  | succ count ih =>
    obtain ⟨steps, next, printed, through, counted, performs, sights⟩ :=
      performs_round accepting steady flattened holds here (State.not_idle_of_rounds more)
    have fewer := Value.rounds_decrement more
    rw [← counted] at fewer
    have still : next.accumulator.rounds ≠ 0 := by
      rw [fewer]
      exact Nat.succ_ne_zero _
    rw [if_neg still] at performs
    obtain ⟨others, final, later, onward, exhausted, performsLater, sightsLater⟩ :=
      ih (holds.advanced next before.length printed steps.length) rfl fewer
    have whole := performs.trans performsLater
    rw [advanced_advanced, ← List.length_append] at whole
    refine ⟨steps ++ others, final, printed ++ later, ?_, ?_, whole, ?_⟩
    · rw [onward, Function.iterate_succ_apply _ (count + 1), ← through]
      rfl
    · rw [exhausted]
      exact (congrArg Value.exhausted counted).trans (Value.exhausted_decrement more)
    · rw [List.map_append, sights, sightsLater, Value.countdown_of_rounds_eq_succ more,
        List.flatMap_cons, ← counted]
      rfl

/-- A counted loop that is skipped meets its two brackets. -/
theorem performs_skip (size : block.size = body.length + 1)
    (holds : machine.Holds before (.loop block .done) behind)
    (here : machine.position = before.length) (idle : machine.state.Idle) :
    ∃ steps, machine.Performs steps
        (machine.advanced machine.state (before.length + block.size + 2) [] steps.length) ∧
      steps.map Step.sight =
        [(before.length, .loopStart, machine.state.accumulator),
          (before.length + body.length + 2, .loopEnd, machine.state.accumulator)] := by
  have holdsThere := holds.advanced machine.state (before.length + 1 + block.size) [] 1
  obtain ⟨effect, skipped⟩ :=
    Performs.of_goesOn (turn_skip holds here idle) (holds.get?_loopStart here)
  obtain ⟨other, left⟩ :=
    Performs.of_goesOn (turn_leave holdsThere rfl idle) (holdsThere.get?_loopEnd rfl)
  have whole := skipped.trans left
  rw [advanced_advanced] at whole
  refine ⟨_, whole, ?_⟩
  have there : before.length + 1 + block.size = before.length + body.length + 2 := by omega
  rw [← there, ← here]
  rfl

/-- What is seen of all steps of a counted loop: its brackets if it is skipped, and otherwise a round
for each value that counting down goes through. -/
def countedSights (start : Nat) (body : List Instruction) (value : Value) :
    List (Nat × Instruction × Value) :=
  if value.rounds = 0 then
    [(start, .loopStart, value), (start + body.length + 2, .loopEnd, value)]
  else
    value.countdown.flatMap (roundSights start body)

theorem length_countedSights (start : Nat) (body : List Instruction) (value : Value) :
    (countedSights start body value).length =
      if value.rounds = 0 then 2 else value.rounds * (body.length + 3) := by
  unfold countedSights
  split
  · rfl
  · simp [List.length_flatMap, length_roundSights, List.map_const']

/-- A counted loop, skipped or not. -/
theorem performs_counted (accepting : Sink.Accepting σ)
    (steady : ∀ instruction ∈ body, instruction.isSteady = true)
    (stands : machine.program.instructions =
      before ++ .loopStart :: (body ++ [.decrement, .loopEnd]) ++ behind)
    (unlimited : machine.config.maxSteps = none) (here : machine.position = before.length) :
    ∃ steps final printed,
      final = (fun state => State.through state (body ++ [.decrement]))^[
        machine.state.accumulator.rounds] machine.state ∧
      final.accumulator = machine.state.accumulator.exhausted ∧
      machine.Performs steps
        (machine.advanced final (before.length + body.length + 3) printed steps.length) ∧
      steps.map Step.sight = countedSights before.length body machine.state.accumulator := by
  have plain (instruction : Instruction) (member : instruction ∈ body ++ [.decrement]) :
      instruction.isBracket = false := by
    rcases List.mem_append.1 member with inBody | last
    · exact Instruction.isBracket_of_isSteady (steady instruction inBody)
    · rw [List.mem_singleton.1 last]
      rfl
  obtain ⟨block, flattened⟩ := Block.exists_of_plain plain
  have holds : machine.Holds before (.loop block .done) behind := by
    refine ⟨?_, unlimited⟩
    rw [stands]
    simp [Block.flatten, flattened]
  have size : block.size = body.length + 1 := by
    rw [Block.size, flattened, List.length_append, List.length_singleton]
  have exit : before.length + block.size + 2 = before.length + body.length + 3 := by omega
  rw [← exit]
  cases rounds : machine.state.accumulator.rounds with
  | zero =>
    obtain ⟨steps, performs, sights⟩ :=
      performs_skip size holds here (State.idle_iff_rounds.2 rounds)
    refine ⟨steps, machine.state, [], rfl, Value.eq_exhausted_of_rounds_eq_zero rounds, performs, ?_⟩
    rw [sights, countedSights, if_pos rounds]
  | succ count =>
    obtain ⟨steps, final, printed, through, exhausted, performs, sights⟩ :=
      performs_countdown accepting steady flattened holds here rounds
    refine ⟨steps, final, printed, through, exhausted, performs, ?_⟩
    rw [sights, countedSights, rounds, if_neg (Nat.succ_ne_zero count)]

/-- A loop that counts down, with a body that leaves the accumulator alone and cannot fail, runs its body
as often as the accumulator can be decremented, and goes on right behind the loop end. Its steps are
known one by one, with the accumulator that each of them meets. -/
theorem counted_loop (accepting : Sink.Accepting σ) (machine : Machine σ)
    (before body behind : List Instruction)
    (steady : ∀ instruction ∈ body, instruction.isSteady = true)
    (stands : machine.program.instructions =
      before ++ .loopStart :: (body ++ [.decrement, .loopEnd]) ++ behind)
    (unlimited : machine.config.maxSteps = none) (here : machine.position = before.length) :
    let value := machine.state.accumulator
    let cost := if value.rounds = 0 then 2 else value.rounds * (body.length + 3)
    ∃ final, machine.after? cost = some final ∧
      final.position = before.length + body.length + 3 ∧
      final.steps = machine.steps + cost ∧
      final.state.accumulator = value.exhausted ∧
      -- The body and the decrement have been executed once for each round.
      final.state =
        (fun state => State.through state (body ++ [.decrement]))^[value.rounds] machine.state ∧
      (machine.history cost).map Step.sight =
        (if value.rounds = 0 then
          [(before.length, .loopStart, value),
            (before.length + body.length + 2, .loopEnd, value)]
        else value.countdown.flatMap (roundSights before.length body)) ∧
      value.countdown.length = value.rounds ∧
      (∀ word, value = .integer word → word ≠ 0 →
        value.countdown.getLast? = some (.integer 1)) ∧
      -- A loop that ends its program ends the run.
      (behind = [] → ∃ events, Run.Returns machine (.ok .endOfProgram) final events) := by
  intro value cost
  obtain ⟨steps, state, printed, through, exhausted, performs, sights⟩ :=
    performs_counted accepting steady stands unlimited here
  have length : steps.length = cost := by
    rw [← List.length_map Step.sight, sights, length_countedSights]
  rw [← length]
  refine ⟨_, performs.reached, rfl, rfl, exhausted, through, ?_, value.length_countdown, ?_, ?_⟩
  · rw [performs.executed]
    exact sights
  · intro word same busy
    rw [same]
    exact Value.getLast?_countdown busy
  · intro last
    apply performs.returns
    have whole : machine.program.instructions.length = before.length + body.length + 3 := by
      rw [stands, last]
      simp only [List.length_append, List.length_cons, List.length_nil]
      omega
    exact List.getElem?_eq_none (Nat.le_of_eq whole)

/-- A loop on a negative word goes all the way around: from -1 the loop of `(!-)` takes four steps for
each of the 2^32 - 1 words that are not zero. -/
theorem counted_loop_wrapping :
    let program : Program := ⟨[.loopStart, .print, .decrement, .loopEnd], rfl⟩
    let fresh := create program Captured.empty {} (.cyclic [])
    let machine := { fresh with state := { fresh.state with accumulator := .integer (-1) } }
    ∃ final events, Run.Returns machine (.ok .endOfProgram) final events ∧ final.position = 4 ∧
      final.steps = 4294967295 * 4 ∧ final.state.accumulator = .zero := by
  intro program fresh machine
  have rounds : machine.state.accumulator.rounds = 4294967295 := by decide
  obtain ⟨final, -, position, steps, exhausted, -, -, -, -, returns⟩ :=
    counted_loop Captured.accepting machine [] [.print] [] (by decide) rfl rfl rfl
  obtain ⟨events, returned⟩ := returns rfl
  rw [rounds] at steps
  exact ⟨final, events, returned, position, steps.trans (Nat.zero_add _), exhausted⟩

end Machine

end Crosswire
