/-
Module: Crosswire.Proofs.Printing
Purpose: What printing hands to a sink. Rendering a value gives its characters, all of them styled or
  none; the prints of a program reach a sink that refuses nothing one after the other, each with the
  characters of its value. A print whose write fails ends the call where it stands.
Imports: Crosswire.Machine
Main exports: StyledChar.shape, Renderer.render_of_plain, Renderer.render_of_honoured,
  Renderer.map_shape_render, Renderer.map_character_render, Sink.Accepting, Sink.writeAll, Sink.Shows,
  Print, deliver, writeAll_deliver, Machine.print_of_taken, Machine.print_of_failed,
  Machine.print_of_accepting
-/
import Crosswire.Machine

namespace Crosswire

/-! ### Rendering -/

/-- What is fixed about a printed character before looks are drawn: the character, and whether it has
a look. -/
def StyledChar.shape (styled : StyledChar) : Char × Bool :=
  (styled.character, styled.style.isSome)

theorem map_shape_drawStyles (characters : List Char) (words : Words) :
    ((drawStyles characters).run words).1.map StyledChar.shape = characters.map (·, true) := by
  induction characters generalizing words with
  | nil => rfl
  | cons character rest ih =>
    exact congrArg ((character, true) :: ·) (ih (Style.draw.run words).2)

namespace Renderer

variable {renderer : Renderer} {styled : Bool}

theorem render_of_plain (plain : (styled && renderer.allowStyling) = false) (value : Value) :
    renderer.render value styled = (value.glyphs.map StyledChar.plain, renderer) := by
  simp only [render, plain, Bool.false_eq_true, if_false]

theorem render_of_honoured (honoured : (styled && renderer.allowStyling) = true) (value : Value) :
    renderer.render value styled =
      (((drawStyles value.glyphs).run renderer.words).1,
        { renderer with words := ((drawStyles value.glyphs).run renderer.words).2 }) := by
  simp only [render, honoured, if_true]
  rfl

/-- Rendering keeps the characters of the value, and gives all of them a look or none. -/
theorem map_shape_render (renderer : Renderer) (value : Value) (styled : Bool) :
    (renderer.render value styled).1.map StyledChar.shape =
      value.glyphs.map (·, styled && renderer.allowStyling) := by
  unfold render
  split
  · next honoured =>
    rw [honoured]
    exact map_shape_drawStyles value.glyphs renderer.words
  · next plain =>
    rw [Bool.not_eq_true] at plain
    simp [plain, StyledChar.plain, StyledChar.shape]

theorem map_character_render (renderer : Renderer) (value : Value) (styled : Bool) :
    (renderer.render value styled).1.map StyledChar.character = value.glyphs := by
  have shapes := congrArg (List.map Prod.fst) (renderer.map_shape_render value styled)
  simpa [StyledChar.shape, Function.comp_def] using shapes

/-- Rendering does not change what is allowed. -/
@[simp] theorem allowStyling_render (renderer : Renderer) (value : Value) (styled : Bool) :
    (renderer.render value styled).2.allowStyling = renderer.allowStyling := by
  unfold render
  split <;> rfl

end Renderer

/-! ### Sinks that refuse nothing -/

namespace Sink

variable {σ : Type} [Sink σ]

/-- Every print is taken. -/
def Accepting (σ : Type) [Sink σ] : Prop :=
  ∀ (characters : List StyledChar) (sink : σ), (Sink.write characters sink).1 = .ok ()

/-- The sink after a number of prints have been handed to it. -/
def writeAll : List (List StyledChar) → σ → σ
  | [], sink => sink
  | characters :: later, sink => writeAll later (Sink.write characters sink).2

theorem writeAll_append (first second : List (List StyledChar)) (sink : σ) :
    writeAll (first ++ second) sink = writeAll second (writeAll first sink) := by
  induction first generalizing sink with
  | nil => rfl
  | cons characters later ih => exact ih (Sink.write characters sink).2

/-- `text` reads off a sink the characters that it has taken. -/
def Shows (text : σ → List Char) : Prop :=
  ∀ (characters : List StyledChar) (sink : σ),
    text (Sink.write characters sink).2 = text sink ++ characters.map StyledChar.character

theorem Shows.prefix_writeAll {text : σ → List Char} (shows : Shows text)
    (written : List (List StyledChar)) (sink : σ) : text sink <+: text (writeAll written sink) := by
  induction written generalizing sink with
  | nil => exact List.prefix_rfl
  | cons characters later ih =>
    have first : text sink <+: text (Sink.write characters sink).2 := by
      rw [shows characters sink]
      exact List.prefix_append _ _
    exact first.trans (ih (Sink.write characters sink).2)

end Sink

/-- The capturing sink takes every print. -/
theorem Captured.accepting : Sink.Accepting Captured :=
  fun _ _ => rfl

theorem Captured.shows_text : Sink.Shows (fun captured : Captured => captured.text.toList) := by
  intro characters captured
  simp [Captured.text, Sink.write]

/-! ### The prints of a program -/

/-- A print that a program asks for. -/
structure Print where
  value : Value
  /-- Whether the program has asked for styled output before. -/
  styled : Bool
deriving DecidableEq, Repr

section Deliver

variable {σ : Type} [Sink σ]

/-- Renderer and sink after a number of prints. -/
def deliver : List Print → Renderer → σ → Renderer × σ
  | [], renderer, sink => (renderer, sink)
  | print :: later, renderer, sink =>
    let (characters, next) := renderer.render print.value print.styled
    deliver later next (Sink.write characters sink).2

theorem deliver_append (first second : List Print) (renderer : Renderer) (sink : σ) :
    deliver (first ++ second) renderer sink =
      deliver second (deliver first renderer sink).1 (deliver first renderer sink).2 := by
  induction first generalizing renderer sink with
  | nil => rfl
  | cons print later ih => exact ih _ _

/-- Each print reaches the sink as one write with the characters of its value. -/
theorem writeAll_deliver (prints : List Print) (renderer : Renderer) (sink : σ) :
    ∃ written : List (List StyledChar),
      (deliver prints renderer sink).2 = Sink.writeAll written sink ∧
      written.map (·.map StyledChar.character) = prints.map (·.value.glyphs) := by
  induction prints generalizing renderer sink with
  | nil => exact ⟨[], rfl, rfl⟩
  | cons print later ih =>
    have rendered := renderer.map_character_render print.value print.styled
    obtain ⟨written, delivered, texts⟩ :=
      ih (renderer.render print.value print.styled).2
        (Sink.write (renderer.render print.value print.styled).1 sink).2
    refine ⟨(renderer.render print.value print.styled).1 :: written, delivered, ?_⟩
    rw [List.map_cons, List.map_cons, texts, rendered]

end Deliver

/-! ### The turn of a print -/

namespace Machine

variable {σ : Type} [Sink σ] {machine : Machine σ} {value : Value} {sink : σ}

theorem print_of_taken
    (taken : Sink.write (machine.renderer.render value machine.state.styled).1 machine.sink =
      (.ok (), sink)) :
    machine.print value =
      .goesOn { machine with
        renderer := (machine.renderer.render value machine.state.styled).2
        sink
        position := machine.position + 1 } := by
  simp only [print, taken]

theorem print_of_failed {failure : OutputFailure}
    (failed : Sink.write (machine.renderer.render value machine.state.styled).1 machine.sink =
      (.error failure, sink)) :
    machine.print value =
      .returns (.error (.output failure)) { machine with
        renderer := (machine.renderer.render value machine.state.styled).2
        sink } := by
  simp only [print, failed]

theorem print_of_accepting (accepting : Sink.Accepting σ) (machine : Machine σ) (value : Value) :
    machine.print value =
      .goesOn { machine with
        renderer := (machine.renderer.render value machine.state.styled).2
        sink := (Sink.write (machine.renderer.render value machine.state.styled).1 machine.sink).2
        position := machine.position + 1 } :=
  print_of_taken (Prod.ext (accepting _ _) rfl)

end Machine

end Crosswire
