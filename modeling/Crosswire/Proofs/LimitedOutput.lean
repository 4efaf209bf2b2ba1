/-
Module: Crosswire.Proofs.LimitedOutput
Purpose: What a terminal over a limited writer has taken is the beginning of all it was sent, wherever the
  limit cuts: between prints, inside a print, inside an escape sequence or inside a character. A print is
  flushed exactly if it fits. A machine that prints to such a terminal keeps step with one whose output is
  captured, until a print does not fit; from then on the terminal is full, and calling again only repeats
  the print that fails.
Imports: Crosswire.Proofs.CallingAgain, Crosswire.Proofs.PrintedText, Crosswire.Proofs.TerminalWriting,
  Crosswire.Proofs.TokenSpans
Main exports: stream, Terminal.Sent, Terminal.sent_writeAll, Machine.later_writes, Machine.Spent,
  Machine.Shadows, Machine.Shadows.turn, Machine.Shadows.endsAfter, Machine.limited_output
-/
import Crosswire.Proofs.CallingAgain
import Crosswire.Proofs.PrintedText
import Crosswire.Proofs.TerminalWriting
import Crosswire.Proofs.TokenSpans

namespace Crosswire

/-- All bytes that a number of prints send to a terminal. -/
def stream (prints : List (List StyledChar)) : List UInt8 :=
  prints.flatMap encodeCharacters

theorem stream_concat (prints : List (List StyledChar)) (print : List StyledChar) :
    stream (prints ++ [print]) = stream prints ++ encodeCharacters print := by
  rw [stream, List.flatMap_append, List.flatMap_singleton, stream]

theorem encodeCharacters_ne_nil {print : List StyledChar} (some : print ≠ []) :
    encodeCharacters print ≠ [] := by
  cases print with
  | nil => exact absurd rfl some
  | cons styled later =>
    obtain ⟨character, rest, begins⟩ := List.exists_cons_of_ne_nil styled.sequence_ne_nil
    have text : terminalText (styled :: later) = character :: (rest ++ terminalText later) := by
      rw [terminalText, List.flatMap_cons, begins]
      rfl
    rw [encodeCharacters, text, List.flatMap_cons]
    exact List.append_ne_nil_of_left_ne_nil String.utf8EncodeChar_ne_nil _

/-! ### Prints to a limited terminal -/

namespace Terminal

variable {terminal : Terminal} {limit : Nat}

/-- A terminal over a writer with a limit has been sent these prints from the beginning. -/
structure Sent (limit : Nat) (failing : List Nat) (prints : List (List StyledChar))
    (terminal : Terminal) : Prop where
  capacity : terminal.capacity = some limit
  failing : terminal.failingFlushes = failing
  /-- The writer has taken as much of the stream as fits. -/
  accepted : terminal.accepted.toList = (stream prints).take limit
  /-- As long as everything fits, every print is flushed. -/
  flushes : (stream prints).length ≤ limit → terminal.flushes = prints.length

namespace Sent

variable {failing : List Nat} {prints : List (List StyledChar)} {print : List StyledChar}

theorem size_eq (sent : Sent limit failing prints terminal) :
    terminal.accepted.size = min limit (stream prints).length := by
  rw [← Array.length_toList, sent.accepted, List.length_take]

/-- A print that still fits is taken whole and flushed. -/
theorem write_of_fits (sent : Sent limit failing prints terminal)
    (fits : (stream (prints ++ [print])).length ≤ limit) :
    ((Sink.write print terminal).1 = .ok () ↔ terminal.flushes ∉ failing) ∧
      (Sink.write print terminal).2.flushes = terminal.flushes + 1 ∧
      Sent limit failing (prints ++ [print]) (Sink.write print terminal).2 := by
  have size := sent.size_eq
  have length := congrArg List.length (stream_concat prints print)
  rw [List.length_append] at length
  have room : (encodeCharacters print).length ≤ limit - terminal.accepted.size := by omega
  rw [write_eq_send, send_of_fits sent.capacity room, Writing.flush_ok_iff, Writing.flush_snd,
    ← sent.failing]
  refine ⟨Iff.rfl, rfl, sent.capacity, rfl, ?_, ?_⟩
  · rw [toList_accepted_taking, sent.accepted, List.take_of_length_le (by omega),
      List.take_of_length_le fits, stream_concat]
  · intro _
    rw [List.length_append, List.length_singleton, ← sent.flushes (by omega)]
    rfl

/-- Of a print that does not fit any more, the writer takes the part that does, and is full. -/
theorem write_of_cut (sent : Sent limit failing prints terminal) (some : print ≠ [])
    (cut : limit < (stream (prints ++ [print])).length) :
    (Sink.write print terminal).1 = .error terminal.exhausted ∧
      (Sink.write print terminal).2.flushes = terminal.flushes ∧
      Sent limit failing (prints ++ [print]) (Sink.write print terminal).2 := by
  have size := sent.size_eq
  have length := congrArg List.length (stream_concat prints print)
  have nonempty := List.length_pos_iff.2 (encodeCharacters_ne_nil some)
  rw [List.length_append] at length
  have tooLong : limit - terminal.accepted.size < (encodeCharacters print).length := by omega
  rw [write_eq_send, send_of_cut sent.capacity tooLong]
  refine ⟨rfl, rfl, sent.capacity, sent.failing, ?_, fun fits => ?_⟩
  · rw [toList_accepted_taking, sent.accepted, stream_concat, List.take_append, size]
    congr 2
    omega
  · exact absurd cut (Nat.not_lt.2 fits)

/-- One more print is one more print of the stream, whether it fits or not. -/
theorem write (sent : Sent limit failing prints terminal) (some : print ≠ []) :
    Sent limit failing (prints ++ [print]) (Sink.write print terminal).2 := by
  rcases Nat.lt_or_ge limit (stream (prints ++ [print])).length with cut | fits
  · exact (sent.write_of_cut some cut).2.2
  · exact (sent.write_of_fits fits).2.2

theorem writeAll (sent : Sent limit failing prints terminal) {later : List (List StyledChar)}
    (some : ∀ print ∈ later, print ≠ []) :
    Sent limit failing (prints ++ later) (Sink.writeAll later terminal) := by
  induction later generalizing prints terminal with
  | nil =>
    rw [List.append_nil]
    exact sent
  | cons print later ih =>
    obtain ⟨here, others⟩ := List.forall_mem_cons.1 some
    rw [← List.singleton_append, ← List.append_assoc]
    exact ih (sent.write here) others

end Sent

/-- A limited terminal has been sent the prints that were written to it. -/
theorem sent_writeAll (limit : Nat) (failing : List Nat) {prints : List (List StyledChar)}
    (some : ∀ print ∈ prints, print ≠ []) :
    Sent limit failing prints (Sink.writeAll prints (limited (.some limit) failing)) := by
  have fresh : Sent limit failing [] (limited (.some limit) failing) :=
    ⟨rfl, rfl, List.take_nil.symm, fun _ => rfl⟩
  exact fresh.writeAll some

end Terminal

/-! ### The prints of a machine -/

theorem Value.glyphs_ne_nil (value : Value) : value.glyphs ≠ [] := by
  match value with
  | .integer _ => exact List.cons_ne_nil _ _
  | .boolean true => exact List.cons_ne_nil _ _
  | .boolean false => exact List.cons_ne_nil _ _

/-- The characters of all prints among some executed instructions, print by print. -/
def printedGlyphs (steps : List Step) : List (List Char) :=
  (steps.filter (·.instruction = .print)).map (·.state.accumulator.glyphs)

namespace Machine

section Writes

variable {σ : Type} [Sink σ] {machine : Machine σ} {step : Step}

/-- A print writes the characters of its value to the sink once, whether the sink takes them or not. -/
theorem sink_apply_print (machine : Machine σ) (value : Value) :
    (machine.apply (.print value)).2.machine.sink =
      (Sink.write (machine.renderer.render value machine.state.styled).1 machine.sink).2 := by
  rcases written : Sink.write (machine.renderer.render value machine.state.styled).1 machine.sink with
    ⟨failure | done, sink⟩
  · simp only [apply, print_of_failed written, Turn.machine]
  · simp only [apply, print_of_taken written, Turn.machine]

/-- An executed instruction writes to the sink if it is a print, and then what it prints. -/
theorem Takes.exists_writes (takes : machine.Takes step) :
    ∃ prints, machine.successor.sink = Sink.writeAll prints machine.sink ∧
      prints.map (·.map StyledChar.character) = printedGlyphs [step] := by
  by_cases printing : step.instruction = .print
  · have effect := (takes.effect_eq_print_iff _).2 ⟨printing, rfl⟩
    have sink := sink_apply_print
      { machine with state := machine.successor.state, steps := machine.steps + 1 }
      machine.state.accumulator
    rw [← effect, ← takes.successor_eq] at sink
    refine ⟨[_], sink, ?_⟩
    simp only [printedGlyphs, printing, decide_true, List.filter_cons_of_pos, List.filter_nil,
      List.map_cons, List.map_nil, Renderer.map_character_render, takes.state]
  · have silent (value : Value) : step.effect ≠ .print value := by
      intro effect
      exact printing ((takes.effect_eq_print_iff value).1 effect).1
    obtain ⟨sink, -⟩ := apply_sink_renderer silent
      { machine with state := machine.successor.state, steps := machine.steps + 1 }
    rw [← takes.successor_eq] at sink
    refine ⟨[], sink, ?_⟩
    simp [printedGlyphs, printing]

/-- Whatever a machine has done to its sink are the prints it has executed, those that failed
included. -/
theorem later_writes (machine : Machine σ) (turns : Nat) :
    ∃ prints, (machine.later turns).sink = Sink.writeAll prints machine.sink ∧
      prints.map (·.map StyledChar.character) = printedGlyphs (machine.history turns) := by
  apply later_induction (motive := fun steps here => ∃ prints,
    here.sink = Sink.writeAll prints machine.sink ∧
      prints.map (·.map StyledChar.character) = printedGlyphs steps)
  · exact ⟨[], rfl, rfl⟩
  · rintro steps here step ⟨earlier, sink, glyphs⟩ takes
    obtain ⟨prints, written, printed⟩ := takes.exists_writes
    refine ⟨earlier ++ prints, ?_, ?_⟩
    · rw [Sink.writeAll_append, ← sink, written]
    · rw [List.map_append, glyphs, printed, printedGlyphs, printedGlyphs, printedGlyphs,
        List.filter_append, List.map_append]

/-- A machine never makes an empty print. -/
theorem ne_nil_of_printed {prints : List (List StyledChar)} {steps : List Step}
    (glyphs : prints.map (·.map StyledChar.character) = printedGlyphs steps) :
    ∀ print ∈ prints, print ≠ [] := by
  rintro print member rfl
  have printed : [] ∈ printedGlyphs steps := by
    rw [← glyphs]
    exact List.mem_map_of_mem member
  obtain ⟨step, -, none⟩ := List.mem_map.1 printed
  exact step.state.accumulator.glyphs_ne_nil none

end Writes

/-! ### Machines that have nothing more to send -/

/-- Every further call of the machine returns in its first turn and sends nothing. -/
inductive Spent (machine : Machine Terminal) : Prop where
  /-- The machine is at the end of the program, at its limit or at a fault. -/
  | rests {result : RunResult} (returns : machine.turn.2 = .returns result machine)
  /-- The machine is at a stop instruction. -/
  | halts (here : machine.program.get? machine.position = some .halt)
  /-- The machine is at a print and its writer takes no more. -/
  | full {limit : Nat} (here : machine.program.get? machine.position = some .print)
      (capacity : machine.sink.capacity = some limit) (filled : limit ≤ machine.sink.accepted.size)

end Machine

theorem Terminal.write_of_full {terminal : Terminal} {limit : Nat}
    (capacity : terminal.capacity = some limit) (filled : limit ≤ terminal.accepted.size)
    {print : List StyledChar} (some : print ≠ []) :
    Sink.write print terminal = (.error terminal.exhausted, terminal) := by
  have nonempty := List.length_pos_iff.2 (encodeCharacters_ne_nil some)
  have room : limit - terminal.accepted.size = 0 := Nat.sub_eq_zero_of_le filled
  rw [write_eq_send, send_of_cut capacity (room.symm ▸ nonempty), room, List.take_zero, taking_nil]

theorem Renderer.render_ne_nil (renderer : Renderer) (value : Value) (styled : Bool) :
    (renderer.render value styled).1 ≠ [] := by
  intro none
  have glyphs := renderer.map_character_render value styled
  rw [none] at glyphs
  exact value.glyphs_ne_nil glyphs.symm

namespace Machine

namespace Spent

variable {machine final : Machine Terminal} {result : RunResult}

/-- Once a call has returned and its output was taken, nothing more is sent. -/
theorem of_returns (returns : machine.turn.2 = .returns result final)
    (taken : ∀ failure, result ≠ .error (.output failure)) : final.Spent := by
  have atRest (rests : AtRest result) : final.Spent := by
    obtain rfl := final_eq_of_atRest returns rests
    exact .rests returns
  match result with
  | .ok .endOfProgram => exact atRest .endOfProgram
  | .ok .stepLimit => exact atRest .stepLimit
  | .ok (.ended position) => exact .halts (halted_of_returns returns).2
  | .error (.faulted fault) => exact atRest (.faulted fault)
  | .error (.output failure) => exact absurd rfl (taken failure)
  | .error (.malformed mismatch) => cases stops_of_returns returns

theorem turn (spent : machine.Spent) :
    ∃ result final, machine.turn.2 = .returns result final ∧ final.Spent ∧
      final.sink = machine.sink := by
  have cut {instruction : Instruction}
      (here : machine.program.get? machine.position = some instruction)
      (reached : machine.limitReached = true) :
      ∃ result final, machine.turn.2 = .returns result final ∧ final.Spent ∧
        final.sink = machine.sink := by
    have limited := congrArg Prod.snd (turn_of_limited here reached)
    exact ⟨_, machine, limited, .rests limited, rfl⟩
  cases spent with
  | rests returns => exact ⟨_, machine, returns, .rests returns, rfl⟩
  | halts here =>
    cases limit : machine.limitReached with
    | true => exact cut here limit
    | false => exact ⟨_, _, turn_of_halt here limit, .halts here, rfl⟩
  | full here capacity filled =>
    cases limit : machine.limitReached with
    | true => exact cut here limit
    | false =>
      have failed := Terminal.write_of_full capacity filled
        (machine.renderer.render_ne_nil machine.state.accumulator machine.state.styled)
      have printed : print { machine with steps := machine.steps + 1 } machine.state.accumulator =
          .returns (.error (.output machine.sink.exhausted)) _ := print_of_failed failed
      rw [turn_of_acts here limit rfl]
      exact ⟨_, _, printed, .full here capacity filled, rfl⟩

theorem exists_calls (spent : machine.Spent) (count : Nat) :
    ∃ reports, reports.length = count ∧ machine.Calls reports := by
  induction count generalizing machine with
  | zero => exact ⟨[], rfl, .nil machine⟩
  | succ count ih =>
    obtain ⟨result, final, returns, still, -⟩ := spent.turn
    obtain ⟨reports, counted, calls⟩ := ih still
    exact ⟨_ :: reports, congrArg (· + 1) counted, .cons (.of_returns returns) calls⟩

theorem sink_of_calls (spent : machine.Spent) {reports : List (Report Terminal)}
    (calls : machine.Calls reports) : ∀ report ∈ reports, report.sink = machine.sink := by
  induction reports generalizing machine with
  | nil => simp
  | cons report reports ih =>
    obtain ⟨result, final, returns, still, same⟩ := spent.turn
    obtain ⟨rfl, onward⟩ := (calls_cons_iff (.of_returns returns)).1 calls
    rw [← same]
    exact List.forall_mem_cons.2 ⟨rfl, ih still onward⟩

end Spent

end Machine

/-! ### Captured output without looks -/

namespace Captured

/-- No captured character has a look. -/
def Plain (captured : Captured) : Prop :=
  ∀ styled ∈ captured.characters.toList, styled.style = none

theorem Plain.of_write {captured : Captured} {print : List StyledChar}
    (plain : (Sink.write print captured).2.Plain) : ∀ styled ∈ print, styled.style = none := by
  intro styled member
  have written : styled ∈ (Sink.write print captured).2.characters.toList := by
    simp [Sink.write, member]
  exact plain styled written

theorem prefix_writeAll (prints : List (List StyledChar)) (captured : Captured) :
    captured.characters.toList <+: (Sink.writeAll prints captured).characters.toList := by
  induction prints generalizing captured with
  | nil => exact List.prefix_rfl
  | cons print later ih =>
    have first : captured.characters.toList <+:
        (Sink.write print captured).2.characters.toList := by
      simp [Sink.write]
    exact first.trans (ih (Sink.write print captured).2)

theorem utf8Bytes_prefix {first second : Captured}
    (grown : first.characters.toList <+: second.characters.toList) :
    utf8Bytes first.text <+: utf8Bytes second.text := by
  obtain ⟨more, same⟩ := grown
  rw [utf8Bytes_eq_flatMap, utf8Bytes_eq_flatMap, text, text, String.toList_ofList,
    String.toList_ofList, ← same, List.map_append, List.flatMap_append]
  exact List.prefix_append _ _

/-- The bytes of a print without looks are those of its text. -/
theorem utf8Bytes_write (captured : Captured) (print : List StyledChar) :
    utf8Bytes (Sink.write print captured).2.text =
      utf8Bytes captured.text ++
        encodeCharacters ((print.map StyledChar.character).map StyledChar.plain) := by
  have grown : (Sink.write print captured).2.text.toList =
      captured.text.toList ++ print.map StyledChar.character := shows_text print captured
  rw [encodeCharacters_plain, utf8Bytes_eq_flatMap, utf8Bytes_eq_flatMap, grown,
    List.flatMap_append]

end Captured

/-- A print of which no character has a look was not asked to have looks. -/
theorem Renderer.unstyled_of_render {renderer : Renderer} {value : Value} {styled : Bool}
    (plain : ∀ printed ∈ (renderer.render value styled).1, printed.style = none) :
    (styled && renderer.allowStyling) = false := by
  obtain ⟨-, looks⟩ := characters_of_shapes (renderer.map_shape_render value styled)
  obtain ⟨first, rest, begins⟩ := List.exists_cons_of_ne_nil (renderer.render_ne_nil value styled)
  have member : first ∈ (renderer.render value styled).1 := begins ▸ List.mem_cons_self
  rw [← looks first member, plain first member]
  rfl

namespace Machine

/-- The machine `sending` stands where the machine `calm` stands, and its terminal has taken all that
`calm` has printed. -/
structure Shadows (limit : Nat) (calm : Machine Captured) (sending : Machine Terminal) : Prop where
  program : sending.program = calm.program
  config : sending.config = calm.config
  state : sending.state = calm.state
  position : sending.position = calm.position
  steps : sending.steps = calm.steps
  allowStyling : sending.renderer.allowStyling = calm.renderer.allowStyling
  sent : ∃ prints, sending.sink.Sent limit [] prints ∧ stream prints = utf8Bytes calm.sink.text
  fits : (utf8Bytes calm.sink.text).length ≤ limit

namespace Shadows

variable {limit : Nat} {calm next final : Machine Captured} {sending : Machine Terminal}
  {result : RunResult} {instruction : Instruction}

theorem get?_eq (shadows : Shadows limit calm sending) :
    sending.program.get? sending.position = calm.program.get? calm.position := by
  rw [shadows.program, shadows.position]

theorem limitReached_eq (shadows : Shadows limit calm sending) :
    sending.limitReached = calm.limitReached := by
  simp only [limitReached, shadows.config, shadows.steps]

theorem execute_eq (shadows : Shadows limit calm sending) (instruction : Instruction) :
    execute instruction sending.position sending.program sending.resolver sending.state =
      execute instruction calm.position calm.program calm.resolver calm.state := by
  rw [sending.resolver_eq, calm.resolver_eq, shadows.program, shadows.config, shadows.position,
    shadows.state]

theorem accepted_eq (shadows : Shadows limit calm sending) :
    sending.sink.accepted.toList = (utf8Bytes calm.sink.text).take limit := by
  obtain ⟨prints, sent, bytes⟩ := shadows.sent
  rw [sent.accepted, bytes]

/-- Both machines count an executed instruction. -/
theorem counted (shadows : Shadows limit calm sending) (state : State) :
    Shadows limit { calm with state, steps := calm.steps + 1 }
      { sending with state, steps := sending.steps + 1 } :=
  { shadows with state := rfl, steps := congrArg (· + 1) shadows.steps }

/-- The terminal takes the same print, or only the beginning of it and is full. -/
theorem printed (shadows : Shadows limit calm sending) {value : Value}
    (goes : calm.print value = .goesOn next) (plain : next.sink.Plain) :
    (∃ after, sending.print value = .goesOn after ∧ Shadows limit next after) ∨
      ∃ failure stuck, sending.print value = .returns (.error (.output failure)) stuck ∧
        stuck.program = sending.program ∧ stuck.position = sending.position ∧
        stuck.sink.capacity = some limit ∧ limit ≤ stuck.sink.accepted.size ∧
        stuck.sink.accepted.toList = (utf8Bytes next.sink.text).take limit := by
  rw [print_of_accepting Captured.accepting] at goes
  cases goes
  have unstyled : (sending.state.styled && sending.renderer.allowStyling) = false := by
    rw [shadows.state, shadows.allowStyling]
    exact Renderer.unstyled_of_render plain.of_write
  have rendered : (sending.renderer.render value sending.state.styled).1 =
      value.glyphs.map StyledChar.plain := congrArg Prod.fst (Renderer.render_of_plain unstyled value)
  have some := sending.renderer.render_ne_nil value sending.state.styled
  obtain ⟨prints, sent, bytes⟩ := shadows.sent
  have grown : stream (prints ++ [(sending.renderer.render value sending.state.styled).1]) =
      utf8Bytes (Sink.write (calm.renderer.render value calm.state.styled).1 calm.sink).2.text := by
    rw [rendered, stream_concat, bytes, Captured.utf8Bytes_write, Renderer.map_character_render]
  rcases Nat.lt_or_ge limit
    (stream (prints ++ [(sending.renderer.render value sending.state.styled).1])).length with cut | fits
  · obtain ⟨failed, -, after⟩ := sent.write_of_cut some cut
    refine .inr ⟨_, _, print_of_failed (Prod.ext failed rfl), rfl, rfl, after.capacity, ?_, ?_⟩
    · rw [after.size_eq]
      exact Nat.le_min.2 ⟨Nat.le_refl limit, Nat.le_of_lt cut⟩
    · rw [after.accepted, grown]
  · obtain ⟨taken, -, after⟩ := sent.write_of_fits fits
    have written := taken.2 List.not_mem_nil
    refine .inl ⟨_, print_of_taken (Prod.ext written rfl), ?_⟩
    exact { shadows with
      position := congrArg (· + 1) shadows.position
      allowStyling := by
        rw [Renderer.allowStyling_render, Renderer.allowStyling_render]
        exact shadows.allowStyling
      sent := ⟨_, after, grown⟩
      fits := grown ▸ fits }

/-- The machines go on together, or return the same together; or a print does not fit, and the machine
that sends it has nothing more to send. -/
theorem turn (shadows : Shadows limit calm sending) (plain : calm.successor.sink.Plain) :
    (∃ next after, calm.turn.2 = .goesOn next ∧ sending.turn.2 = .goesOn after ∧
        Shadows limit next after) ∨
      (∃ result final after, calm.turn.2 = .returns result final ∧
        sending.turn.2 = .returns result after ∧ Shadows limit final after) ∨
      ∃ next failure stuck, calm.turn.2 = .goesOn next ∧
        sending.turn.2 = .returns (.error (.output failure)) stuck ∧ stuck.Spent ∧
        limit ≤ stuck.sink.accepted.size ∧
        stuck.sink.accepted.toList = (utf8Bytes next.sink.text).take limit := by
  cases calm.moment with
  | outside outside =>
    rw [turn_of_outside outside, turn_of_outside (shadows.get?_eq.trans outside)]
    exact .inr (.inl ⟨_, _, _, rfl, rfl, shadows⟩)
  | limited here reached =>
    rw [turn_of_limited here reached, turn_of_limited (shadows.get?_eq.trans here)
      (shadows.limitReached_eq.trans reached)]
    exact .inr (.inl ⟨_, _, _, rfl, rfl, shadows⟩)
  | faults here free executed =>
    rw [turn_of_faults here free executed, turn_of_faults (shadows.get?_eq.trans here)
      (shadows.limitReached_eq.trans free) ((shadows.execute_eq _).trans executed)]
    exact .inr (.inl ⟨_, _, _, rfl, rfl, { shadows with state := rfl }⟩)
  | @acts instruction effect state here free executed =>
    have turned := congrArg Prod.snd (turn_of_acts here free executed)
    rw [turned, turn_of_acts (shadows.get?_eq.trans here) (shadows.limitReached_eq.trans free)
      ((shadows.execute_eq _).trans executed)]
    have counted := shadows.counted state
    cases effect with
    | next =>
      exact .inl ⟨_, _, rfl, rfl, { counted with position := congrArg (· + 1) shadows.position }⟩
    | jump target => exact .inl ⟨_, _, rfl, rfl, { counted with position := rfl }⟩
    | halt =>
      refine .inr (.inl ⟨_, _, _, rfl, ?_, counted⟩)
      simp only [apply, shadows.position]
    | print value =>
      have goes := print_of_accepting Captured.accepting
        { calm with state, steps := calm.steps + 1 } value
      rw [successor_of_goesOn (turned.trans goes)] at plain
      rcases counted.printed goes plain with ⟨after, taken, still⟩ |
        ⟨failure, stuck, failed, program, position, capacity, filled, accepted⟩
      · exact .inl ⟨_, after, goes, taken, still⟩
      · obtain ⟨rfl, rfl⟩ := execute_eq_print executed
        have stands : stuck.program.get? stuck.position = some .print := by
          rw [program, position]
          exact shadows.get?_eq.trans here
        have full : stuck.Spent := .full stands capacity filled
        exact .inr (.inr ⟨_, failure, stuck, goes, failed, full, filled, accepted⟩)

end Shadows

/-- What was captured before a call returns is the beginning of what is captured then. -/
theorem EndsAfter.characters_prefix {calm final : Machine Captured} {turns : Nat} {result : RunResult}
    (ends : calm.EndsAfter turns result final) :
    calm.sink.characters.toList <+: final.sink.characters.toList := by
  obtain ⟨prints, written, -⟩ := calm.later_writes (turns + 1)
  rw [← ends.later_eq, written]
  exact Captured.prefix_writeAll prints calm.sink

/-- When the captured run returns, the sending machine has returned too, with the beginning of the
captured text in its terminal and nothing more to send. -/
theorem Shadows.endsAfter {limit : Nat} {calm final : Machine Captured} {sending : Machine Terminal}
    {turns : Nat} {result : RunResult} (shadows : Shadows limit calm sending)
    (ends : calm.EndsAfter turns result final) (plain : final.sink.Plain) :
    ∃ others outcome after, sending.EndsAfter others outcome after ∧ after.Spent ∧
      after.sink.accepted.toList = (utf8Bytes final.sink.text).take limit := by
  -- The machines stay together turn by turn, until the captured run returns or a print does not fit.
  induction turns generalizing calm sending with
  | zero =>
    obtain ⟨last, reached, returned⟩ := ends
    cases reached
    have same := successor_of_returns returned
    rcases shadows.turn (same ▸ plain) with ⟨next, -, goes, -⟩ |
      ⟨other, another, after, returns, returnsToo, still⟩ | ⟨next, -, -, goes, -⟩
    · rw [goes] at returned
      cases returned
    · rw [returns] at returned
      cases returned
      have taken := result_ne_output Captured.accepting returns
      exact ⟨0, _, after, .of_returns returnsToo, .of_returns returnsToo taken, still.accepted_eq⟩
    · rw [goes] at returned
      cases returned
  | succ turns ih =>
    cases turned : calm.turn.2 with
    | returns other another =>
      obtain ⟨last, reached, -⟩ := ends
      rw [after?_succ_of_returns turned] at reached
      cases reached
    | goesOn next =>
      obtain ⟨rest, counted, onward⟩ := ends.remaining (after?_one_of_goesOn turned)
      obtain rfl : turns = rest := by omega
      have grown := onward.characters_prefix
      have plainNext : calm.successor.sink.Plain := by
        rw [successor_of_goesOn turned]
        exact fun styled member => plain styled (grown.subset member)
      rcases shadows.turn plainNext with ⟨other, after, goes, goesToo, still⟩ |
        ⟨_, _, _, returns, -⟩ | ⟨other, failure, stuck, goes, failed, spent, filled, accepted⟩
      · rw [turned] at goes
        cases goes
        obtain ⟨others, outcome, stopped, endsToo, spent, accepted⟩ := ih still onward
        exact ⟨1 + others, outcome, stopped, endsToo.prepend (after?_one_of_goesOn goesToo), spent,
          accepted⟩
      · rw [turned] at returns
        cases returns
      · rw [turned] at goes
        cases goes
        refine ⟨0, _, stuck, .of_returns failed, spent, ?_⟩
        -- The terminal is full, so what the captured run prints from here on changes nothing.
        have long : limit ≤ (utf8Bytes next.sink.text).length := by
          have size := congrArg List.length accepted
          rw [Array.length_toList, List.length_take] at size
          omega
        obtain ⟨more, whole⟩ := Captured.utf8Bytes_prefix grown
        rw [accepted, ← whole, List.take_append_of_le_length long]

theorem Shadows.of_create (program : Program) (config : Config) (words others : Words)
    (limit : Nat) :
    Shadows limit (create program Captured.empty config words)
      (create program (Terminal.limited (some limit) []) config others) := by
  have nothing : utf8Bytes Captured.empty.text = [] := utf8Bytes_eq_flatMap _
  have sent := Terminal.sent_writeAll limit [] (List.forall_mem_nil fun print => print ≠ [])
  have fits : (utf8Bytes Captured.empty.text).length ≤ limit := by
    rw [nothing]
    exact Nat.zero_le limit
  exact ⟨rfl, rfl, rfl, rfl, rfl, rfl, ⟨[], sent, nothing.symm⟩, fits⟩

/-- A terminal over a limited writer takes the beginning of what it is sent, up to the limit. -/
theorem limited_output (limit : Nat) (failing : List Nat) :
    -- However the prints are cut, the bytes taken are the first bytes of all prints; a print succeeds
    -- if it fits and its flush does not fail, and is flushed once if it fits and never otherwise.
    (∀ prints : List (List StyledChar), (∀ print ∈ prints, print ≠ []) →
      let sink := Sink.writeAll prints (Terminal.limited (some limit) failing)
      sink.accepted.toList = (stream prints).take limit ∧
      ∀ print, print ≠ [] →
        ((Sink.write print sink).1 = .ok () ↔
          (stream (prints ++ [print])).length ≤ limit ∧ sink.flushes ∉ failing) ∧
        (Sink.write print sink).2.flushes =
          sink.flushes + (if (stream (prints ++ [print])).length ≤ limit then 1 else 0) ∧
        ((stream (prints ++ [print])).length ≤ limit → sink.flushes = prints.length)) ∧
    -- All that any number of calls of a machine do to the terminal are such prints.
    (∀ program config words,
      let machine := create program (Terminal.limited (some limit) failing) config words
      ∀ here, machine.Visits here → ∃ turns prints, machine.later turns = here ∧
        here.sink = Sink.writeAll prints (Terminal.limited (some limit) failing) ∧
        (∀ print ∈ prints, print ≠ []) ∧
        prints.map (·.map StyledChar.character) = printedGlyphs (machine.history turns)) ∧
    -- A run without looks and failing flushes sends the text that a captured run prints.
    ∀ program config words others result final events,
      Run.Returns (create program Captured.empty config words) result final events →
      final.sink.Plain →
      let machine := create program (Terminal.limited (some limit) []) config others
      (∀ count, ∃ reports, reports.length = count ∧ machine.Calls reports) ∧
      ∀ reports, machine.Calls reports → ∀ report ∈ reports,
        report.sink.accepted.toList = (utf8Bytes final.sink.text).take limit := by
  refine ⟨?_, ?_, ?_⟩
  · intro prints some sink
    have sent := Terminal.sent_writeAll limit failing some
    refine ⟨sent.accepted, ?_⟩
    intro print nonempty
    rcases Nat.lt_or_ge limit (stream (prints ++ [print])).length with cut | fits
    · obtain ⟨failed, unflushed, -⟩ := sent.write_of_cut nonempty cut
      have tooLong := Nat.not_le.2 cut
      rw [if_neg tooLong]
      have refused : (Sink.write print sink).1 ≠ .ok () := by
        rw [failed]
        nofun
      exact ⟨iff_of_false refused fun taken => tooLong taken.1, unflushed,
        fun fits => absurd fits tooLong⟩
    · obtain ⟨taken, flushed, -⟩ := sent.write_of_fits fits
      have before : (stream prints).length ≤ limit := by
        rw [stream_concat, List.length_append] at fits
        exact Nat.le_trans (Nat.le_add_right _ _) fits
      rw [if_pos fits, and_iff_right fits]
      exact ⟨taken, flushed, fun _ => sent.flushes before⟩
  · intro program config words machine here visits
    obtain ⟨turns, reached⟩ := visits.exists_later
    obtain ⟨prints, written, glyphs⟩ := later_writes machine turns
    exact ⟨turns, prints, reached, reached ▸ written, ne_nil_of_printed glyphs, glyphs⟩
  · intro program config words others result final events returns plain machine
    obtain ⟨turns, ends⟩ := returns_iff.1 ⟨events, returns⟩
    obtain ⟨more, outcome, after, endsToo, spent, accepted⟩ :=
      (Shadows.of_create program config words others limit).endsAfter ends plain
    refine ⟨?_, ?_⟩
    · intro count
      cases count with
      | zero => exact ⟨[], rfl, .nil machine⟩
      | succ count =>
        obtain ⟨reports, counted, calls⟩ := spent.exists_calls count
        exact ⟨_ :: reports, congrArg (· + 1) counted, .cons endsToo calls⟩
    · intro reports calls
      cases reports with
      | nil => simp
      | cons report reports =>
        obtain ⟨rfl, onward⟩ := (calls_cons_iff endsToo).1 calls
        have later := spent.sink_of_calls onward
        refine List.forall_mem_cons.2 ⟨accepted, ?_⟩
        intro report member
        rw [later report member, accepted]

/-- The program `-!` prints U+FFFF, of whose three bytes a writer for two takes two, however often the
print is tried. -/
theorem limited_output_split :
    ∃ reports, reports.length = 3 ∧
      (create ⟨[.decrement, .print], rfl⟩ (Terminal.limited (some 2) []) {} (.cyclic [])).Calls
        reports ∧
      ∀ report ∈ reports, report.sink.accepted.toList = [0xef, 0xbf] := by
  obtain ⟨-, -, runs⟩ := limited_output 2 []
  have returns : Run.Returns
      (create ⟨[.decrement, .print], rfl⟩ Captured.empty {} (.cyclic []))
      (.ok .endOfProgram) _ _ := ⟨3, rfl⟩
  have plain : Captured.Plain ⟨#[.plain '\uffff'], 1⟩ := by
    unfold Captured.Plain
    decide
  obtain ⟨exist, accepted⟩ := runs _ _ _ (.cyclic []) _ _ _ returns plain
  obtain ⟨reports, counted, calls⟩ := exist 3
  refine ⟨reports, counted, calls, ?_⟩
  intro report member
  rw [accepted reports calls report member, utf8Bytes_eq_flatMap]
  decide

end Machine

end Crosswire
