/-
Module: Crosswire.Proofs.PrintedText
Purpose: What a program has printed at any point of its life. The captured text is made of the printed
  accumulators, one after the other in the order of the executed prints, and nothing else; a character
  has a look exactly if looks are allowed and styled output was asked for before its print. Since styled
  output is never switched off, the characters without a look come first.
Imports: Crosswire.Proofs.Retrying, Crosswire.Proofs.StylingIndependence
Main exports: printedText, Step.shapes, Machine.Takes.captures, Machine.PlainFirst, Machine.Printed,
  Machine.printed_later, Machine.plainFirst_later, Machine.captured_split, Machine.printed_output
-/
import Crosswire.Proofs.Retrying
import Crosswire.Proofs.StylingIndependence

namespace Crosswire

/-- The text of all prints among some executed instructions: the accumulators that they met. -/
def printedText (steps : List Step) : String :=
  String.join ((steps.filter (·.instruction = .print)).map (·.state.accumulator.text))

/-- What an executed instruction prints: characters, each with whether it has a look. -/
def Step.shapes (allowStyling : Bool) (step : Step) : List (Char × Bool) :=
  if step.instruction = .print then
    step.state.accumulator.glyphs.map (·, step.state.styled && allowStyling)
  else
    []

/-- Characters of one shape are the given ones, and all of them have a look or none has. -/
theorem characters_of_shapes {characters : List StyledChar} {glyphs : List Char} {styled : Bool}
    (shapes : characters.map StyledChar.shape = glyphs.map (·, styled)) :
    characters.map StyledChar.character = glyphs ∧
      ∀ character ∈ characters, character.style.isSome = styled := by
  constructor
  · have same := congrArg (List.map Prod.fst) shapes
    simpa [StyledChar.shape, Function.comp_def] using same
  · intro character member
    have shape : character.shape ∈ glyphs.map (·, styled) := by
      rw [← shapes]
      exact List.mem_map_of_mem member
    obtain ⟨glyph, -, same⟩ := List.mem_map.1 shape
    exact (congrArg Prod.snd same).symm

theorem Captured.map_fst_shapes (captured : Captured) :
    captured.shapes.map Prod.fst = captured.text.toList := by
  rw [text, String.toList_ofList, shapes, List.map_map]
  rfl

theorem Captured.map_snd_shapes (captured : Captured) :
    captured.shapes.map Prod.snd = captured.characters.toList.map (·.style.isSome) := by
  rw [shapes, List.map_map]
  rfl

theorem map_fst_shapes (allowStyling : Bool) (steps : List Step) :
    (steps.flatMap (Step.shapes allowStyling)).map Prod.fst = (printedText steps).toList := by
  rw [printedText, String.toList_join]
  induction steps with
  | nil => rfl
  | cons step later ih =>
    rw [List.flatMap_cons, List.map_append, ih]
    by_cases prints : step.instruction = .print
    · simp [Step.shapes, prints, Value.text, Function.comp_def]
    · simp [Step.shapes, prints]

/-- The characters of one step all have a look or none has. -/
theorem Step.map_snd_shapes (allowStyling : Bool) (step : Step) :
    ∃ count, (step.shapes allowStyling).map Prod.snd =
      List.replicate count (step.state.styled && allowStyling) := by
  by_cases prints : step.instruction = .print
  · refine ⟨step.state.accumulator.glyphs.length, ?_⟩
    simp [shapes, prints, Function.comp_def, List.map_const']
  · refine ⟨0, ?_⟩
    simp [shapes, prints]

namespace Machine

/-! ### One executed instruction -/

section Successor

variable {σ : Type} [Sink σ] {machine : Machine σ} {step : Step}

theorem Takes.successor_eq (takes : machine.Takes step) :
    machine.successor =
      (apply { machine with state := machine.successor.state, steps := machine.steps + 1 }
        step.effect).2.machine :=
  congrArg (fun turned => turned.2.machine) (turn_of_acts takes.here takes.free takes.executed)

/-- A step asks for a print exactly if its instruction is a print, and prints the accumulator. -/
theorem Takes.effect_eq_print_iff (takes : machine.Takes step) (value : Value) :
    step.effect = .print value ↔ step.instruction = .print ∧ value = machine.state.accumulator := by
  have executed := takes.executed
  constructor
  · intro prints
    rw [prints] at executed
    obtain ⟨instruction, -⟩ := execute_eq_print executed
    rw [instruction] at executed
    injection executed with effect
    injection effect with effect
    injection effect with printed
    exact ⟨instruction, printed.symm⟩
  · rintro ⟨instruction, rfl⟩
    rw [instruction] at executed
    injection executed with effect
    injection effect with effect
    exact effect.symm

theorem apply_sink_renderer {effect : Effect} (silent : ∀ value, effect ≠ .print value)
    (machine : Machine σ) :
    (machine.apply effect).2.machine.sink = machine.sink ∧
      (machine.apply effect).2.machine.renderer = machine.renderer := by
  cases effect with
  | next => exact ⟨rfl, rfl⟩
  | jump target => exact ⟨rfl, rfl⟩
  | halt => exact ⟨rfl, rfl⟩
  | print value => exact absurd rfl (silent value)

end Successor

variable {machine : Machine Captured} {step : Step}

/-- A print adds the characters of its value to the captured ones. -/
theorem apply_print_captures (machine : Machine Captured) (value : Value) :
    (machine.apply (.print value)).2.machine.sink.shapes =
        machine.sink.shapes ++
          value.glyphs.map (·, machine.state.styled && machine.renderer.allowStyling) ∧
      (machine.apply (.print value)).2.machine.sink.prints = machine.sink.prints + 1 ∧
      (machine.apply (.print value)).2.machine.renderer.allowStyling =
        machine.renderer.allowStyling := by
  simp only [apply, print_of_accepting Captured.accepting, Turn.machine]
  refine ⟨?_, rfl, Renderer.allowStyling_render _ _ _⟩
  rw [Captured.shapes_write, Renderer.map_shape_render]

/-- An executed instruction adds its own characters to the captured ones. -/
theorem Takes.captures (takes : machine.Takes step) :
    machine.successor.sink.shapes =
        machine.sink.shapes ++ step.shapes machine.renderer.allowStyling ∧
      machine.successor.sink.prints =
        machine.sink.prints + (decide (step.instruction = .print)).toNat ∧
      machine.successor.renderer.allowStyling = machine.renderer.allowStyling := by
  have executed := takes.executed
  by_cases prints : step.instruction = .print
  · have effect := (takes.effect_eq_print_iff _).2 ⟨prints, rfl⟩
    rw [effect] at executed
    have same := (execute_eq_print executed).2
    have captured := apply_print_captures
      { machine with state := machine.successor.state, steps := machine.steps + 1 }
      machine.state.accumulator
    rw [← effect, ← takes.successor_eq, same] at captured
    simp only [Step.shapes, prints, if_true, takes.state, decide_true, Bool.toNat_true]
    exact captured
  · have silent (value : Value) : step.effect ≠ .print value := by
      intro effect
      exact prints ((takes.effect_eq_print_iff value).1 effect).1
    obtain ⟨sink, renderer⟩ := apply_sink_renderer silent
      { machine with state := machine.successor.state, steps := machine.steps + 1 }
    rw [← takes.successor_eq] at sink renderer
    simp [Step.shapes, prints, sink, renderer]

/-- The captured characters without a look come first; as long as no looks are given, there are no
others. -/
def PlainFirst (machine : Machine Captured) : Prop :=
  ∃ plain styled, machine.sink.shapes.map Prod.snd =
      List.replicate plain false ++ List.replicate styled true ∧
    ((machine.state.styled && machine.renderer.allowStyling) = false → styled = 0)

theorem Takes.plainFirst (takes : machine.Takes step) (before : machine.PlainFirst) :
    machine.successor.PlainFirst := by
  obtain ⟨plain, styled, looks, unstyled⟩ := before
  obtain ⟨shapes, -, allowStyling⟩ := takes.captures
  obtain ⟨count, added⟩ := step.map_snd_shapes machine.renderer.allowStyling
  have grown : machine.successor.sink.shapes.map Prod.snd =
      List.replicate plain false ++ List.replicate styled true ++
        List.replicate count (machine.state.styled && machine.renderer.allowStyling) := by
    rw [shapes, List.map_append, looks, added, takes.state]
  cases given : machine.state.styled && machine.renderer.allowStyling with
  | false =>
    obtain rfl := unstyled given
    refine ⟨plain + count, 0, ?_, fun _ => rfl⟩
    rw [grown, given, List.replicate_zero, List.append_nil, List.append_nil,
      List.replicate_append_replicate]
  | true =>
    refine ⟨plain, styled + count, ?_, ?_⟩
    · rw [grown, given, List.append_assoc, List.replicate_append_replicate]
    · -- Looks are given for good, so nothing is to show.
      intro none
      obtain ⟨asked, allowed⟩ := Bool.and_eq_true_iff.1 given
      rw [takes.styled, allowStyling, asked, allowed] at none
      cases none

/-! ### All turns -/

/-- What a machine has printed and asked for while it executed `steps` from `start` on. -/
structure Printed (start : Machine Captured) (steps : List Step) (here : Machine Captured) :
    Prop where
  allowStyling : here.renderer.allowStyling = start.renderer.allowStyling
  shapes : here.sink.shapes =
    start.sink.shapes ++ steps.flatMap (Step.shapes start.renderer.allowStyling)
  prints : here.sink.prints = start.sink.prints + steps.countP (·.instruction = .print)
  styled : here.state.styled = (start.state.styled || steps.any (·.instruction = .discourage))

theorem printed_later (machine : Machine Captured) (turns : Nat) :
    machine.Printed (machine.history turns) (machine.later turns) := by
  apply later_induction (motive := machine.Printed)
  · exact ⟨rfl, (List.append_nil _).symm, rfl, (Bool.or_false _).symm⟩
  · intro steps here step before takes
    obtain ⟨shapes, prints, allowStyling⟩ := takes.captures
    constructor
    · rw [allowStyling, before.allowStyling]
    · rw [shapes, before.shapes, before.allowStyling, List.flatMap_append, List.append_assoc,
        List.flatMap_singleton]
    · rw [prints, before.prints, List.countP_append, List.countP_singleton, Nat.add_assoc]
      cases decide (step.instruction = .print) <;> rfl
    · rw [takes.styled, before.styled, List.any_append, List.any_cons, List.any_nil,
        Bool.or_false, Bool.or_assoc]

theorem plainFirst_later (before : machine.PlainFirst) (turns : Nat) :
    (machine.later turns).PlainFirst := by
  apply later_induction (motive := fun _ here => here.PlainFirst)
  · exact before
  · intro _ here step still takes
    exact takes.plainFirst still

/-- Where the characters of one print stand among all captured characters. -/
theorem captured_split {turns : Nat} {before after : List Step}
    (fresh : machine.sink.shapes = []) (plain : machine.state.styled = false)
    (split : machine.history turns = before ++ step :: after) (prints : step.instruction = .print) :
    ∃ first own rest, (machine.later turns).sink.characters.toList = first ++ own ++ rest ∧
      String.ofList (first.map StyledChar.character) = printedText before ∧
      own.map StyledChar.character = step.state.accumulator.glyphs ∧
      ∀ character ∈ own, (character.style.isSome ↔ machine.renderer.allowStyling = true ∧
        ∃ earlier ∈ before, earlier.instruction = .discourage) := by
  have shapes := (machine.printed_later turns).shapes
  rw [fresh, List.nil_append, split, List.flatMap_append, List.flatMap_cons, ← List.append_assoc]
    at shapes
  obtain ⟨start, rest, characters, started, -⟩ := List.map_eq_append_iff.1 shapes
  obtain ⟨first, own, rfl, early, mine⟩ := List.map_eq_append_iff.1 started
  obtain ⟨turn, -, sofar, takes⟩ := exists_turn_of_history_eq split
  have asked := (machine.printed_later turn).styled
  rw [sofar, plain, Bool.false_or, ← takes.state] at asked
  simp only [Step.shapes, prints, if_true, asked] at mine
  obtain ⟨glyphs, looks⟩ := characters_of_shapes mine
  refine ⟨first, own, rest, characters, ?_, glyphs, ?_⟩
  · apply String.toList_injective
    rw [String.toList_ofList, ← map_fst_shapes, ← early, List.map_map]
    rfl
  · intro character member
    rw [looks character member]
    simp [and_comm]

/-- At every point of the life of a machine, the captured text is made of the accumulators that the
executed prints have met, in their order. Looks have no influence on anything else. -/
theorem printed_output (program : Program) (config : Config) (words : Words) :
    let machine := create program Captured.empty config words
    (∀ here, machine.Visits here → ∃ turns, machine.later turns = here) ∧
    (∀ turns,
      (machine.later turns).steps = (machine.history turns).length ∧
      (machine.later turns).sink.text = printedText (machine.history turns) ∧
      (machine.later turns).sink.prints =
        (machine.history turns).countP (·.instruction = .print) ∧
      ∃ plain styled, (machine.later turns).sink.characters.toList.map (·.style.isSome) =
        List.replicate plain false ++ List.replicate styled true) ∧
    -- A character has a look exactly if looks are allowed and were asked for before its print.
    (∀ turns before step after, machine.history turns = before ++ step :: after →
      step.instruction = .print →
      ∃ first own rest, (machine.later turns).sink.characters.toList = first ++ own ++ rest ∧
        String.ofList (first.map StyledChar.character) = printedText before ∧
        own.map StyledChar.character = step.state.accumulator.glyphs ∧
        ∀ character ∈ own, (character.style.isSome ↔ config.allowStyling = true ∧
          ∃ earlier ∈ before, earlier.instruction = .discourage)) ∧
    -- Styling, tracing and the random words change nothing but looks.
    ∀ (allowStyling trace : Bool) (others : Words),
      let other := create program Captured.empty { config with allowStyling, trace } others
      (∀ turns, (other.later turns).state = (machine.later turns).state ∧
        (other.later turns).position = (machine.later turns).position ∧
        (other.later turns).steps = (machine.later turns).steps ∧
        (other.later turns).sink.text = (machine.later turns).sink.text) ∧
      ∀ observed : List (Report String),
        (∃ reports, machine.Calls reports ∧
            reports.map (Report.reading Captured.text) = observed) ↔
          ∃ reports, other.Calls reports ∧
            reports.map (Report.reading Captured.text) = observed := by
  intro machine
  have start : machine.PlainFirst := ⟨0, 0, rfl, fun _ => rfl⟩
  refine ⟨?_, ?_, ?_, ?_⟩
  · intro here visits
    exact visits.exists_later
  · intro turns
    have printed := machine.printed_later turns
    refine ⟨?_, ?_, ?_, ?_⟩
    · rw [steps_later]
      exact Nat.zero_add _
    · apply String.toList_injective
      rw [← Captured.map_fst_shapes, printed.shapes, ← map_fst_shapes]
      rfl
    · rw [printed.prints]
      exact Nat.zero_add _
    · obtain ⟨plain, styled, looks, -⟩ := plainFirst_later start turns
      exact ⟨plain, styled, ((machine.later turns).sink.map_snd_shapes).symm.trans looks⟩
  · intro turns before step after split prints
    exact captured_split rfl rfl split prints
  · intro allowStyling trace others other
    have alike := Alike.of_create program config words others allowStyling trace
    refine ⟨?_, ?_⟩
    · intro turns
      have still := alike.later turns
      exact ⟨still.state, still.position, still.steps, still.text⟩
    · intro observed
      constructor
      · rintro ⟨reports, calls, rfl⟩
        exact alike.calls calls
      · rintro ⟨reports, calls, rfl⟩
        exact alike.symm.calls calls

/-- The program `!*!` prints zero twice, without a look and with one. -/
theorem printed_output_halfStyled :
    let machine := create ⟨[.print, .discourage, .print], rfl⟩ Captured.empty {} (.cyclic [])
    (machine.later 3).sink.text = "\x00\x00" ∧ (machine.later 3).sink.prints = 2 ∧
      ∃ first own rest, (machine.later 3).sink.characters.toList = first ++ own ++ rest ∧
        own.map StyledChar.character = ['\x00'] ∧ ∀ character ∈ own, character.style.isSome := by
  intro machine
  obtain ⟨-, printed, looks, -⟩ :=
    printed_output ⟨[.print, .discourage, .print], rfl⟩ {} (.cyclic [])
  obtain ⟨-, text, prints, -⟩ := printed 3
  obtain ⟨first, own, rest, split, -, glyphs, styled⟩ :=
    looks 3 [⟨0, .print, .initial, .print .zero⟩, ⟨1, .discourage, .initial, .next⟩]
      ⟨2, .print, { State.initial with styled := true }, .print .zero⟩ [] rfl rfl
  refine ⟨text, prints, first, own, rest, split, glyphs, ?_⟩
  intro character member
  exact (styled character member).2 ⟨rfl, _, List.mem_cons_of_mem _ (List.mem_singleton_self _), rfl⟩

end Machine

end Crosswire
