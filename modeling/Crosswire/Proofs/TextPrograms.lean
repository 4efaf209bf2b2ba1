/-
Module: Crosswire.Proofs.TextPrograms
Purpose: Programs that print a given text. A number is spelled by its binary digits, highest first: push
  the accumulator and add it to itself, then add one for a digit that is set; that doubles because the
  queue is empty before each push. One such number and a print for each code unit is a source for any
  text. `Yields` is the contract of a stretch of code, with what it prints; the code of a digit, of a
  number and of a text have theirs from it, and the run of the whole program follows.
Imports: Crosswire.Proofs.StraightLine, Crosswire.Proofs.SequentialComposition,
  Crosswire.Proofs.CanonicalSource
Main exports: numberSource, printSource, codeUnits, unitCharacter, Yields, yields_digit, yields_number,
  yields_printSource, Machine.prints_units, Machine.text_program
-/
import Crosswire.Proofs.StraightLine
import Crosswire.Proofs.SequentialComposition
import Crosswire.Proofs.CanonicalSource

namespace Crosswire

/-! ### The generator -/

/-- The source of one binary digit of a unit. Zeros above the highest digit that is set are left out. -/
def digitSource (unit : UInt16) (bit : Nat) : String :=
  if unit.toNat >>> bit = 0 then ""
  else "=+" ++ (if (unit.toNat >>> bit) % 2 = 1 then "t+" else "") ++ " "

/-- Source that sets the accumulator to a 16-bit number, by doubling and adding one. -/
def numberSource (unit : UInt16) : String :=
  "2 0 " ++ String.join ((List.range 16).reverse.map (digitSource unit))

/-- Source that prints code units one after the other, with a separator behind each print. -/
def printSource (separator : String) (units : List UInt16) : String :=
  String.join (units.map fun unit => numberSource unit ++ "!" ++ separator)

/-- The UTF-16 form of a character. -/
def codeUnitsOfChar (character : Char) : List UInt16 :=
  let scalar := character.toNat
  if scalar ≤ 0xFFFF then [.ofNat scalar]
  else [.ofNat (0xD800 + (scalar - 0x10000) / 0x400), .ofNat (0xDC00 + (scalar - 0x10000) % 0x400)]

/-- The UTF-16 form of a text. -/
def codeUnits (text : String) : List UInt16 :=
  text.toList.flatMap codeUnitsOfChar

/-- The character of a code unit, which is U+FFFD for one half of a surrogate pair. -/
def unitCharacter (unit : UInt16) : Char :=
  if 0xD800 ≤ unit.toNat ∧ unit.toNat ≤ 0xDFFF then '\uFFFD' else Char.ofNat unit.toNat

/-! ### The code of a source -/

theorem instructionsOf_append (first second : String) :
    instructionsOf (first ++ second) = instructionsOf first ++ instructionsOf second := by
  simp only [instructionsOf_eq_filterMap, String.toList_append, List.filterMap_append]

theorem instructionsOf_join (sources : List String) :
    instructionsOf (String.join sources) = sources.flatMap instructionsOf := by
  induction sources with
  | nil => rfl
  | cons source rest ih => rw [String.join_cons, instructionsOf_append, ih, List.flatMap_cons]

theorem instructionsOf_digitSource (unit : UInt16) (bit : Nat) :
    instructionsOf (digitSource unit bit) =
      if unit.toNat >>> bit = 0 then []
      else .push :: .add :: if (unit.toNat >>> bit) % 2 = 1 then [.pushTrue, .add] else [] := by
  unfold digitSource
  split
  · rfl
  · split <;> rfl

theorem instructionsOf_numberSource (unit : UInt16) :
    instructionsOf (numberSource unit) =
      [.modeTwoD, .zero] ++
        (List.range 16).reverse.flatMap fun bit => instructionsOf (digitSource unit bit) := by
  rw [numberSource, instructionsOf_append, instructionsOf_join, List.flatMap_map]
  rfl

theorem instructionsOf_printSource_cons {separator : String} (blank : instructionsOf separator = [])
    (unit : UInt16) (rest : List UInt16) :
    instructionsOf (printSource separator (unit :: rest)) =
      instructionsOf (numberSource unit) ++ [.print] ++ instructionsOf (printSource separator rest) := by
  rw [printSource, List.map_cons, String.join_cons, instructionsOf_append, instructionsOf_append,
    instructionsOf_append, blank, List.append_nil]
  rfl

/-! ### What code does and prints -/

/-- The plain instructions `code`, wherever they stand, lead from one state to another and ask for
these prints. -/
def Yields (code : List Instruction) (state : State) (printed : List Print) (final : State) : Prop :=
  ∀ position, ∃ steps, Passes position code state steps final ∧
    steps.filterMap Step.print? = printed

namespace Yields

variable {code more : List Instruction} {state middle final : State} {printed later : List Print}

theorem nothing (state : State) : Yields [] state [] state :=
  fun _ => ⟨[], .done, rfl⟩

theorem append (yields : Yields code state printed middle) (onward : Yields more middle later final) :
    Yields (code ++ more) state (printed ++ later) final := by
  intro position
  obtain ⟨steps, passes, prints⟩ := yields position
  obtain ⟨others, passesLater, printsLater⟩ := onward (position + code.length)
  refine ⟨steps ++ others, passes.append passesLater, ?_⟩
  rw [List.filterMap_append, prints, printsLater]

theorem plain (yields : Yields code state printed final) {instruction : Instruction}
    (member : instruction ∈ code) : instruction.isBracket = false := by
  obtain ⟨steps, passes, -⟩ := yields 0
  exact passes.plain member

end Yields

/-! ### Numbers -/

/-- The state with a number in the accumulator and push acting on the value stack. -/
def State.holding (state : State) (number : Nat) : State :=
  { state with accumulator := .integer (.ofNat number), mode := .twoD }

/-- Pushing the accumulator to an empty queue and adding doubles it. -/
theorem yields_double {state : State} (empty : state.area.top = []) (number : Nat) :
    Yields [.push, .add] (state.holding number) [] (state.holding (2 * number)) := by
  obtain ⟨accumulator, mode, ⟨top, below⟩, styled⟩ := state
  obtain rfl : top = [] := empty
  rw [Nat.two_mul, State.holding, State.holding, Int32.ofNat_add]
  exact fun _ => ⟨_, .step rfl rfl nofun (.step rfl rfl nofun .done), rfl⟩

/-- Adding `true` from an empty queue counts one. -/
theorem yields_increment {state : State} (empty : state.area.top = []) (number : Nat) :
    Yields [.pushTrue, .add] (state.holding number) [] (state.holding (number + 1)) := by
  obtain ⟨accumulator, mode, ⟨top, below⟩, styled⟩ := state
  obtain rfl : top = [] := empty
  rw [Nat.add_comm, State.holding, State.holding, Int32.ofNat_add]
  exact fun _ => ⟨_, .step rfl rfl nofun (.step rfl rfl nofun .done), rfl⟩

theorem shiftRight_eq_double (number bit : Nat) :
    number >>> bit = 2 * (number >>> (bit + 1)) + (number >>> bit) % 2 := by
  rw [Nat.shiftRight_succ]
  omega

/-- The code of a digit takes the accumulator from the digits above it to those with it. -/
theorem yields_digit {state : State} (empty : state.area.top = []) (unit : UInt16) (bit : Nat) :
    Yields (instructionsOf (digitSource unit bit)) (state.holding (unit.toNat >>> (bit + 1))) []
      (state.holding (unit.toNat >>> bit)) := by
  have digits := shiftRight_eq_double unit.toNat bit
  have doubled := yields_double empty (unit.toNat >>> (bit + 1))
  rw [instructionsOf_digitSource]
  split
  · next none =>
    have above : unit.toNat >>> (bit + 1) = unit.toNat >>> bit := by omega
    rw [above]
    exact .nothing _
  · split
    · next set =>
      rw [set] at digits
      rw [digits]
      exact doubled.append (yields_increment empty _)
    · next clear =>
      have even : unit.toNat >>> bit = 2 * (unit.toNat >>> (bit + 1)) := by omega
      rw [even]
      exact doubled

/-- The digits from some place down complete the number whose digits above them are there already. -/
theorem yields_digits {state : State} (empty : state.area.top = []) (unit : UInt16) (count : Nat) :
    Yields ((List.range count).reverse.flatMap fun bit => instructionsOf (digitSource unit bit))
      (state.holding (unit.toNat >>> count)) [] (state.holding unit.toNat) := by
  induction count with
  | zero => exact .nothing _
  | succ count ih =>
    rw [List.range_succ, List.reverse_append, List.reverse_singleton, List.singleton_append,
      List.flatMap_cons]
    exact (yields_digit empty unit count).append ih

/-- The code of a number sets the accumulator to it and leaves the empty queue as it is. -/
theorem yields_number {state : State} (empty : state.area.top = []) (unit : UInt16) :
    Yields (instructionsOf (numberSource unit)) state [] (state.holding unit.toNat) := by
  have above : unit.toNat >>> 16 = 0 := by
    rw [Nat.shiftRight_eq_div_pow]
    exact Nat.div_eq_of_lt unit.toNat_lt
  have cleared : Yields [.modeTwoD, .zero] state [] (state.holding (unit.toNat >>> 16)) := by
    rw [above]
    exact fun _ => ⟨_, .step rfl rfl nofun (.step rfl rfl nofun .done), rfl⟩
  rw [instructionsOf_numberSource]
  exact cleared.append (yields_digits empty unit 16)

/-! ### Texts -/

/-- The print of a code unit. -/
def unitPrint (styled : Bool) (unit : UInt16) : Print :=
  ⟨.integer (.ofNat unit.toNat), styled⟩

/-- The code of code units prints them all, and leaves the last one in the accumulator. -/
theorem yields_printSource {separator : String} (blank : instructionsOf separator = [])
    (units : List UInt16) {state : State} (empty : state.area.top = []) :
    ∃ final, Yields (instructionsOf (printSource separator units)) state
        (units.map (unitPrint state.styled)) final ∧
      final.area = state.area ∧
      final.accumulator =
        (units.getLast?.map fun unit => Value.integer (.ofNat unit.toNat)).getD state.accumulator := by
  induction units generalizing state with
  | nil => exact ⟨state, .nothing state, rfl, rfl⟩
  | cons unit rest ih =>
    have shown : Yields [.print] (state.holding unit.toNat) [unitPrint state.styled unit]
        (state.holding unit.toNat) :=
      fun _ => ⟨_, .step rfl rfl nofun .done, rfl⟩
    have stillEmpty : (state.holding unit.toNat).area.top = [] := empty
    obtain ⟨final, yields, area, accumulator⟩ := ih stillEmpty
    refine ⟨final, ?_, area, ?_⟩
    · rw [instructionsOf_printSource_cons blank]
      exact ((yields_number empty unit).append shown).append yields
    · rw [accumulator, List.getLast?_cons]
      cases rest.getLast? <;> rfl

/-- A word that holds a code unit prints as the character of the unit. -/
theorem glyphs_unitPrint (styled : Bool) (unit : UInt16) :
    (unitPrint styled unit).value.glyphs = [unitCharacter unit] := by
  have low := unit.toNat_lt
  have word : (Int32.ofNat unit.toNat).toInt = unit.toNat :=
    Int32.toInt_ofNat_of_lt (by omega)
  have code : Value.codeUnit (.ofNat unit.toNat) = unit.toNat := by
    rw [Value.codeUnit, word]
    omega
  rw [unitPrint, Value.glyphs, code]
  simp [Value.unitChar, Value.isSurrogate, unitCharacter]

theorem flatMap_glyphs_unitPrint (styled : Bool) (units : List UInt16) :
    (units.map (unitPrint styled)).flatMap (·.value.glyphs) = units.map unitCharacter := by
  rw [List.flatMap_map, List.map_eq_flatMap]
  simp only [glyphs_unitPrint]

/-- A character up to U+FFFF has one code unit, and is the character of it. -/
theorem map_unitCharacter_codeUnitsOfChar {character : Char} (narrow : character.toNat ≤ 0xFFFF) :
    (codeUnitsOfChar character).map unitCharacter = [character] := by
  have same : (UInt16.ofNat character.toNat).toNat = character.toNat :=
    UInt16.toNat_ofNat_of_lt (Nat.lt_succ_of_le narrow)
  have scalar : ¬ (0xD800 ≤ character.toNat ∧ character.toNat ≤ 0xDFFF) := by
    rintro ⟨high, low⟩
    rcases character.valid with below | ⟨above, -⟩
    · exact absurd high (Nat.not_le.2 below)
    · exact absurd low (Nat.not_le.2 above)
  rw [codeUnitsOfChar, if_pos narrow, List.map_singleton, unitCharacter, same, if_neg scalar,
    Char.ofNat_toNat]

theorem map_unitCharacter_codeUnits {text : String}
    (narrow : ∀ character ∈ text.toList, character.toNat ≤ 0xFFFF) :
    (codeUnits text).map unitCharacter = text.toList := by
  unfold codeUnits
  generalize text.toList = characters at narrow
  induction characters with
  | nil => rfl
  | cons character rest ih =>
    rw [List.flatMap_cons, List.map_append,
      map_unitCharacter_codeUnitsOfChar (narrow character (List.mem_cons_self ..)),
      ih fun other member => narrow other (List.mem_cons_of_mem _ member)]
    rfl

/-! ### Running the program of a text -/

/-- Source without brackets loads. -/
theorem Program.load_of_plain {source : String}
    (plain : ∀ instruction ∈ instructionsOf source, instruction.isBracket = false) :
    ∃ program, load source = .ok program ∧ program.instructions = instructionsOf source := by
  have absent {bracket : Instruction} (isBracket : bracket.isBracket = true) :
      (instructionsOf source).count bracket = 0 := by
    refine List.count_eq_zero.2 fun member => ?_
    rw [plain bracket member] at isBracket
    cases isBracket
  have balanced : (instructionsOf source).count .loopStart = (instructionsOf source).count .loopEnd :=
    (absent rfl).trans (absent rfl).symm
  exact ⟨⟨instructionsOf source, balanced⟩, ofInstructions_eq_ok_iff.2 rfl, rfl⟩

namespace Machine

/-- A fresh machine on source that yields prints runs to the end of it and captures them. -/
theorem run_of_yields {source : String} {printed : List Print} {final : State}
    (yields : Yields (instructionsOf source) .initial printed final) (words : Words) :
    ∃ program after events, Program.load source = .ok program ∧
      Run.Returns (create program Captured.empty {} words) (.ok .endOfProgram) after events ∧
      after.state = final ∧
      after.sink.text.toList = printed.flatMap (·.value.glyphs) := by
  obtain ⟨program, loaded, instructions⟩ :=
    Program.load_of_plain fun _ member => yields.plain member
  obtain ⟨steps, passes, prints⟩ := yields 0
  have stands : program.instructions = [] ++ instructionsOf source ++ [] := by
    rw [instructions, List.nil_append, List.append_nil]
  have performs : (create program Captured.empty {} words).Performs steps _ :=
    performs_of_passes Captured.accepting passes stands rfl rfl rfl rfl
  have outside : program.get? (0 + (instructionsOf source).length) = none := by
    rw [Program.get?, instructions, Nat.zero_add]
    exact List.getElem?_eq_none (Nat.le_refl _)
  obtain ⟨events, returns⟩ := performs.returns outside
  refine ⟨program, _, events, loaded, returns, rfl, ?_⟩
  have shown := Captured.shows_text.text_deliver (steps.filterMap Step.print?)
    (create program Captured.empty {} words).renderer Captured.empty
  rw [prints] at shown
  rw [advanced, prints]
  exact shown

/-- The source of code units prints the character of each, and leaves the last of them behind. -/
theorem prints_units {separator : String} (blank : instructionsOf separator = []) (words : Words)
    (units : List UInt16) :
    ∃ program final events, Program.load (printSource separator units) = .ok program ∧
      Run.Returns (create program Captured.empty {} words) (.ok .endOfProgram) final events ∧
      final.state.area = .single ∧
      final.state.accumulator = .integer (.ofNat (units.getLast?.getD 0).toNat) ∧
      final.sink.text = String.ofList (units.map unitCharacter) := by
  have empty : State.initial.area.top = [] := rfl
  obtain ⟨state, yields, area, accumulator⟩ := yields_printSource blank units empty
  obtain ⟨program, final, events, loaded, returns, rfl, shown⟩ := run_of_yields yields words
  refine ⟨program, final, events, loaded, returns, area, ?_, ?_⟩
  · rw [accumulator]
    cases units.getLast? <;> rfl
  · rw [← String.toList_inj, shown, flatMap_glyphs_unitPrint, String.toList_ofList]

/-- The source of any code units loads, and a fresh run of it prints the character of each of them: it
goes through to the end, leaves one empty stack and has the last unit in the accumulator. Hence the
source of a text without characters beyond U+FFFF prints the text. The separator may be any text
without instructions. -/
theorem text_program (separator : String) (blank : instructionsOf separator = []) (words : Words) :
    (∀ units : List UInt16, ∃ program final events,
      Program.load (printSource separator units) = .ok program ∧
      Run.Returns (create program Captured.empty {} words) (.ok .endOfProgram) final events ∧
      final.state.area = .single ∧
      final.state.accumulator = .integer (.ofNat (units.getLast?.getD 0).toNat) ∧
      final.sink.text = String.ofList (units.map unitCharacter)) ∧
    ∀ text : String, (∀ character ∈ text.toList, character.toNat ≤ 0xFFFF) →
      ∃ program final events, Program.load (printSource separator (codeUnits text)) = .ok program ∧
        Run.Returns (create program Captured.empty {} words) (.ok .endOfProgram) final events ∧
        final.sink.text = text := by
  refine ⟨prints_units blank words, ?_⟩
  intro text narrow
  obtain ⟨program, final, events, loaded, returns, -, -, shown⟩ :=
    prints_units blank words (codeUnits text)
  refine ⟨program, final, events, loaded, returns, ?_⟩
  rw [shown, map_unitCharacter_codeUnits narrow, String.ofList_toList]

/-- A text with characters of two and three bytes is printed exactly, and half of a surrogate pair as
U+FFFD. -/
theorem text_program_wide :
    (∃ program final events, Program.load (printSource "\n" (codeUnits "Grüße €")) = .ok program ∧
      Run.Returns (create program Captured.empty {} (.cyclic [])) (.ok .endOfProgram) final events ∧
      final.sink.text = "Grüße €") ∧
    ∃ program final events, Program.load (printSource "\n" [0xD83D, 0x42]) = .ok program ∧
      Run.Returns (create program Captured.empty {} (.cyclic [])) (.ok .endOfProgram) final events ∧
      final.state.accumulator = .integer 66 ∧ final.sink.text = "\uFFFDB" := by
  obtain ⟨ofUnits, ofText⟩ := text_program "\n" (by decide) (.cyclic [])
  obtain ⟨program, final, events, loaded, returns, -, accumulator, shown⟩ := ofUnits [0xD83D, 0x42]
  exact ⟨ofText "Grüße €" (by simp), program, final, events, loaded, returns, accumulator, shown⟩

end Machine

end Crosswire
