/-
Module: Crosswire.Proofs.StyledRendering
Purpose: How many random words styled output uses, and what for. A choice among three takes one word, or
  two when the first leaves open whether it carries into the index; an index that gains the carry was not
  the last one, so no choice ever leaves its set. The look of a character is read off the words from
  where its draws begin, eleven of them and one more for each choice that takes two; the next character's
  draws begin right behind (`Words.pastLook`), also across prints, and unstyled prints use none.
Imports: Crosswire.Proofs.Printing, Mathlib (iterating a function)
Main exports: Words.past, carryOpen, Draw.below_lt, Draw.getElem?_pick, Words.index, Words.pastChoice,
  Words.pastLook, Style.DrawnAt, Style.run_draw, LookInTurn, run_drawStyles, Renderer.renderAll,
  Renderer.styled_rendering_in_step
-/
import Mathlib.Logic.Function.Iterate
import Crosswire.Proofs.Printing

namespace Crosswire

/-- The supply when a number of words have been drawn from it. -/
def Words.past (words : Words) (number : Nat) : Words :=
  { words with used := number }

/-! ### Choosing an index -/

/-- Whether a word leaves open which number below `bound` it gives: the low half of its product with the
bound is so large that a further word may carry into the high half. -/
def carryOpen (bound : Nat) (word : UInt32) : Bool :=
  0x100000000 - bound < word.toNat * bound % 0x100000000

/-- Where the carry is open, the high half is not the last number below the bound. -/
theorem high_succ_lt {bound word : Nat} (small : bound ≤ 0x100000000) (fits : word < 0x100000000)
    (isOpen : 0x100000000 - bound < word * bound % 0x100000000) :
    word * bound / 0x100000000 + 1 < bound := by
  -- The largest word gives the last number with a low half of just `2^32 - bound`.
  have largest : word * bound ≤ 0xFFFFFFFF * bound := Nat.mul_le_mul_right bound (by omega)
  omega

namespace Draw

variable {bound : Nat} {words : Words}

theorem run_below_of_closed (closed : carryOpen bound (words.word words.used) = false) :
    (below bound).run words =
      ((words.word words.used).toNat * bound / 0x100000000, words.past (words.used + 1)) := by
  have low : ¬ (word.run words).1.toNat * bound % 0x100000000 > 0x100000000 - bound :=
    of_decide_eq_false closed
  unfold below
  rw [StateT.run_bind]
  change (ite _ _ _ : Draw Nat).run (words.past (words.used + 1)) = _
  rw [if_neg low]
  rfl

/-- A second word decides whether the high half gains one. -/
theorem run_below_of_open (isOpen : carryOpen bound (words.word words.used) = true) :
    ∃ carry ≤ 1, (below bound).run words =
      ((words.word words.used).toNat * bound / 0x100000000 + carry, words.past (words.used + 2)) := by
  have low : (word.run words).1.toNat * bound % 0x100000000 > 0x100000000 - bound :=
    of_decide_eq_true isOpen
  unfold below
  rw [StateT.run_bind]
  change ∃ carry ≤ 1, (ite _ _ _ : Draw Nat).run (words.past (words.used + 1)) = _
  rw [if_pos low]
  by_cases carries : (words.word words.used).toNat * bound % 0x100000000 +
      (words.word (words.used + 1)).toNat * bound / 0x100000000 ≥ 0x100000000
  · refine ⟨1, Nat.le_refl 1, Prod.ext ?_ rfl⟩
    exact if_pos carries
  · refine ⟨0, Nat.zero_le 1, Prod.ext ?_ rfl⟩
    exact if_neg carries

/-- A number drawn below a bound is below it, with and without a carry. -/
theorem below_lt (positive : 0 < bound) (small : bound ≤ 0x100000000) (words : Words) :
    ((below bound).run words).1 < bound := by
  have fits : (words.word words.used).toNat < 0x100000000 := UInt32.toNat_lt _
  cases known : carryOpen bound (words.word words.used) with
  | false =>
    rw [run_below_of_closed known]
    exact Nat.div_lt_of_lt_mul (Nat.mul_lt_mul_of_pos_right fits positive)
  | true =>
    obtain ⟨carry, one, drawn⟩ := run_below_of_open known
    have room := high_succ_lt small fits (of_decide_eq_true known)
    rw [drawn]
    omega

theorem words_below (bound : Nat) (words : Words) :
    ((below bound).run words).2 =
      words.past (words.used + 1 + (carryOpen bound (words.word words.used)).toNat) := by
  cases known : carryOpen bound (words.word words.used) with
  | false =>
    rw [run_below_of_closed known]
    rfl
  | true =>
    obtain ⟨carry, -, drawn⟩ := run_below_of_open known
    rw [drawn]
    rfl

/-- A pick takes the element with the index that it draws, and never falls back on the first one. -/
theorem getElem?_pick {α : Type} (first : α) (others : List α)
    (small : others.length + 1 ≤ 0x100000000) (words : Words) :
    (first :: others)[((below (others.length + 1)).run words).1]? =
      some ((pick first others).run words).1 := by
  have inside : ((below (others.length + 1)).run words).1 < (first :: others).length :=
    below_lt (Nat.succ_pos _) small words
  have taken : ((pick first others).run words).1 =
      (first :: others).getD ((below (others.length + 1)).run words).1 first := rfl
  rw [taken, List.getD_eq_getElem?_getD, List.getElem?_eq_getElem inside, Option.getD_some]

end Draw

/-! ### The look of a character -/

namespace Words

/-- The index that a choice among three draws, when it begins with word `number`. -/
def index (words : Words) (number : Nat) : Nat :=
  ((Draw.below 3).run (words.past number)).1

/-- The word behind a choice among three that begins with word `number`. -/
def pastChoice (words : Words) (number : Nat) : Nat :=
  number + 1 + (carryOpen 3 (words.word number)).toNat

/-- The word that follows the colors and some of the choices of a look whose draws begin with word
`start`. -/
def choice (words : Words) (start passed : Nat) : Nat :=
  words.pastChoice^[passed] (start + 6)

/-- The word behind a look whose draws begin with word `start`: eleven words, and one more for each of the
three choices whose first word leaves the carry open. -/
def pastLook (words : Words) (start : Nat) : Nat :=
  start + 11 + [0, 1, 2].countP fun passed => carryOpen 3 (words.word (words.choice start passed))

/-- The color made of three words. -/
def color (words : Words) (number : Nat) : Rgb :=
  ⟨(words.word number).toUInt8, (words.word (number + 1)).toUInt8, (words.word (number + 2)).toUInt8⟩

/-- The coin that a word is. -/
def flip (words : Words) (number : Nat) : Bool :=
  words.word number ≥ 0x80000000

theorem index_lt (words : Words) (number : Nat) : words.index number < 3 :=
  Draw.below_lt (by decide) (by decide) _

theorem choice_succ (words : Words) (start passed : Nat) :
    words.choice start (passed + 1) = words.pastChoice (words.choice start passed) :=
  Function.iterate_succ_apply' words.pastChoice passed (start + 6)

theorem pastLook_bounds (words : Words) (start : Nat) :
    start + 11 ≤ words.pastLook start ∧ words.pastLook start ≤ start + 14 := by
  have most := List.countP_le_length
    (p := fun passed => carryOpen 3 (words.word (words.choice start passed))) (l := [0, 1, 2])
  unfold pastLook
  simp only [List.length_cons, List.length_nil] at most
  omega

/-- Behind the three choices of a look stand two coins. -/
theorem pastLook_eq (words : Words) (start : Nat) :
    words.pastLook start = words.choice start 3 + 2 := by
  have next (passed : Nat) : words.choice start (passed + 1) =
      words.choice start passed + 1 +
        (carryOpen 3 (words.word (words.choice start passed))).toNat :=
    words.choice_succ start passed
  have first : words.choice start 0 = start + 6 := rfl
  have counted (asks : Nat → Bool) :
      [0, 1, 2].countP asks = (asks 0).toNat + (asks 1).toNat + (asks 2).toNat := by
    cases zero : asks 0 <;> cases one : asks 1 <;> cases two : asks 2 <;> simp [zero, one, two]
  rw [pastLook, counted, next 2, next 1, next 0, first]
  omega

end Words

/-- A look is the one that is drawn from word `start` on. Every index of a choice is inside its set. -/
structure Style.DrawnAt (words : Words) (start : Nat) (style : Style) : Prop where
  foreground : style.foreground = words.color start
  background : style.background = words.color (start + 3)
  intensity : [Intensity.bold, .normal, .faint][words.index (words.choice start 0)]? =
    some style.intensity
  underline : [Underline.single, .double, .off][words.index (words.choice start 1)]? =
    some style.underline
  blink : [Blink.off, .fast, .slow][words.index (words.choice start 2)]? = some style.blink
  strikethrough : style.strikethrough = words.flip (words.choice start 3)
  italic : style.italic = words.flip (words.choice start 3 + 1)

namespace Draw

theorem run_bind_of {α β : Type} {draw : Draw α} {next : α → Draw β} {words after : Words} {drawn : α}
    (ran : draw.run words = (drawn, after)) : (draw >>= next).run words = (next drawn).run after := by
  rw [StateT.run_bind, ran]
  rfl

theorem run_color (words : Words) (number : Nat) :
    Rgb.draw.run (words.past number) = (words.color number, words.past (number + 3)) := rfl

theorem run_coin (words : Words) (number : Nat) :
    coin.run (words.past number) = (words.flip number, words.past (number + 1)) := rfl

/-- A pick among three takes the element that its index names, with the words of one choice. -/
theorem run_pick {α : Type} (first second third : α) (words : Words) (start passed : Nat) :
    ∃ picked, [first, second, third][words.index (words.choice start passed)]? = some picked ∧
      (pick first [second, third]).run (words.past (words.choice start passed)) =
        (picked, words.past (words.choice start (passed + 1))) := by
  refine ⟨((pick first [second, third]).run (words.past (words.choice start passed))).1, ?_, ?_⟩
  · apply getElem?_pick first [second, third]
    exact (by decide : 3 ≤ 0x100000000)
  · rw [words.choice_succ]
    exact Prod.ext rfl (words_below 3 (words.past (words.choice start passed)))

end Draw

/-- A look uses the words from where its draws begin up to where `pastLook` says. -/
theorem Style.run_draw (words : Words) (start : Nat) :
    ∃ style, Style.draw.run (words.past start) = (style, words.past (words.pastLook start)) ∧
      style.DrawnAt words start := by
  obtain ⟨intensity, first, firstRun⟩ := Draw.run_pick Intensity.bold .normal .faint words start 0
  obtain ⟨underline, second, secondRun⟩ := Draw.run_pick Underline.single .double .off words start 1
  obtain ⟨blink, third, thirdRun⟩ := Draw.run_pick Blink.off .fast .slow words start 2
  refine ⟨⟨words.color start, words.color (start + 3), intensity, underline, blink,
    words.flip (words.choice start 3), words.flip (words.choice start 3 + 1)⟩, ?_, ?_⟩
  · have colors : words.past (start + 3 + 3) = words.past (words.choice start 0) := rfl
    rw [words.pastLook_eq, Style.draw, Draw.run_bind_of (Draw.run_color words start),
      Draw.run_bind_of (Draw.run_color words (start + 3)), colors, Draw.run_bind_of firstRun,
      Draw.run_bind_of secondRun, Draw.run_bind_of thirdRun,
      Draw.run_bind_of (Draw.run_coin words (words.choice start 3)),
      Draw.run_bind_of (Draw.run_coin words (words.choice start 3 + 1))]
    rfl
  · exact ⟨rfl, rfl, first, second, third, rfl, rfl⟩

/-! ### The characters of a print -/

/-- Every one of some characters has a look. The draws of the first begin with word `start`, and those
of each other one where the draws before it end. -/
def LookInTurn (words : Words) (start : Nat) (characters : List StyledChar) : Prop :=
  ∀ (place : Nat) (character : StyledChar), characters[place]? = some character →
    ∃ style : Style, character.style = some style ∧
      style.DrawnAt words (words.pastLook^[place] start)

theorem run_drawStyles (glyphs : List Char) (words : Words) (start : Nat) :
    ((drawStyles glyphs).run (words.past start)).2 =
        words.past (words.pastLook^[glyphs.length] start) ∧
      LookInTurn words start ((drawStyles glyphs).run (words.past start)).1 := by
  induction glyphs generalizing start with
  | nil => exact ⟨rfl, nofun⟩
  | cons glyph rest ih =>
    -- The first look decides where the draws of all others begin.
    obtain ⟨style, drawn, look⟩ := Style.run_draw words start
    obtain ⟨after, looks⟩ := ih (words.pastLook start)
    have ran : (drawStyles (glyph :: rest)).run (words.past start) =
        (⟨glyph, some style⟩ :: ((drawStyles rest).run (words.past (words.pastLook start))).1,
          ((drawStyles rest).run (words.past (words.pastLook start))).2) := by
      rw [drawStyles, Draw.run_bind_of drawn]
      rfl
    rw [ran]
    refine ⟨after, ?_⟩
    intro place character found
    cases place with
    | zero =>
      cases found
      exact ⟨style, rfl, look⟩
    | succ place => exact looks place character found

namespace Renderer

/-- Rendering draws from the supply and changes nothing else. -/
theorem exists_render_eq (renderer : Renderer) (value : Value) (styled : Bool) :
    ∃ number, (renderer.render value styled).2 =
      ⟨renderer.words.past number, renderer.allowStyling⟩ := by
  cases honoured : styled && renderer.allowStyling with
  | false =>
    rw [render_of_plain honoured]
    exact ⟨renderer.words.used, rfl⟩
  | true =>
    have drawn := (run_drawStyles value.glyphs renderer.words renderer.words.used).1
    rw [render_of_honoured honoured]
    exact ⟨_, congrArg (Renderer.mk · renderer.allowStyling) drawn⟩

/-- Render values one after the other: the characters of each, and the renderer in the end. -/
def renderAll (renderer : Renderer) : List Print → List (List StyledChar) × Renderer
  | [] => ([], renderer)
  | print :: later =>
    let (characters, next) := renderer.render print.value print.styled
    let (others, final) := next.renderAll later
    (characters :: others, final)

theorem renderAll_append (renderer : Renderer) (first second : List Print) :
    renderer.renderAll (first ++ second) =
      ((renderer.renderAll first).1 ++ ((renderer.renderAll first).2.renderAll second).1,
        ((renderer.renderAll first).2.renderAll second).2) := by
  induction first generalizing renderer with
  | nil => rfl
  | cons print later ih => simp only [List.cons_append, renderAll, ih]

theorem length_renderAll (renderer : Renderer) (prints : List Print) :
    (renderer.renderAll prints).1.length = prints.length := by
  induction prints generalizing renderer with
  | nil => rfl
  | cons print later ih => exact congrArg (· + 1) (ih _)

theorem exists_renderAll_eq (renderer : Renderer) (prints : List Print) :
    ∃ number, (renderer.renderAll prints).2 =
      ⟨renderer.words.past number, renderer.allowStyling⟩ := by
  induction prints generalizing renderer with
  | nil => exact ⟨renderer.words.used, rfl⟩
  | cons print later ih =>
    obtain ⟨number, rendered⟩ := renderer.exists_render_eq print.value print.styled
    obtain ⟨final, others⟩ := ih (renderer.render print.value print.styled).2
    refine ⟨final, others.trans ?_⟩
    rw [rendered]
    rfl

/-- Of prints that one renderer renders in turn, each shows the characters of its value. Where looks are
asked for and allowed, every character has the look that is drawn from where the draws before it ended,
with eleven to fourteen words and choices that stay inside their sets; elsewhere no word is drawn. -/
theorem styled_rendering_in_step (words : Words) (allowStyling : Bool) (before : List Print)
    (print : Print) (after : List Print) :
    let renderer : Renderer := ⟨words, allowStyling⟩
    let start := (renderer.renderAll before).2.words.used
    let stop := (renderer.renderAll (before ++ [print])).2.words.used
    (∃ characters,
      (renderer.renderAll (before ++ print :: after)).1[before.length]? = some characters ∧
      String.ofList (characters.map StyledChar.character) = print.value.text ∧
      ((print.styled && allowStyling) = false →
        stop = start ∧ ∀ character ∈ characters, character.style = none) ∧
      ((print.styled && allowStyling) = true →
        stop = words.pastLook^[characters.length] start ∧ LookInTurn words start characters)) ∧
    (∀ number, number + 11 ≤ words.pastLook number ∧ words.pastLook number ≤ number + 14) ∧
    ∀ number, words.index number < 3 := by
  intro renderer start stop
  refine ⟨?_, words.pastLook_bounds, words.index_lt⟩
  obtain ⟨number, met⟩ := renderer.exists_renderAll_eq before
  have begun : start = number := congrArg (·.words.used) met
  have here : (renderer.renderAll before).2 = ⟨words.past start, allowStyling⟩ := by
    rw [begun]
    exact met
  have ended : stop = ((Renderer.mk (words.past start) allowStyling).render print.value
      print.styled).2.words.used := by
    have split := congrArg (·.2.words.used) (renderer.renderAll_append before [print])
    rw [here] at split
    exact split
  have texts := map_character_render ⟨words.past start, allowStyling⟩ print.value print.styled
  refine ⟨((Renderer.mk (words.past start) allowStyling).render print.value print.styled).1, ?_,
    congrArg String.ofList texts, ?_, ?_⟩
  · have behind := Nat.le_of_eq (renderer.length_renderAll before)
    rw [renderAll_append, here, List.getElem?_append_right behind, length_renderAll, Nat.sub_self]
    rfl
  · intro plain
    rw [ended, render_of_plain plain]
    refine ⟨rfl, ?_⟩
    intro character member
    obtain ⟨glyph, -, rfl⟩ := List.mem_map.1 member
    rfl
  · intro honoured
    obtain ⟨drawn, looks⟩ := run_drawStyles print.value.glyphs words start
    have count := congrArg List.length texts
    rw [List.length_map] at count
    rw [count, ended, render_of_honoured honoured]
    exact ⟨congrArg Words.used drawn, looks⟩

end Renderer

end Crosswire
