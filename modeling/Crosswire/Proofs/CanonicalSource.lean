/-
Module: Crosswire.Proofs.CanonicalSource
Purpose: Programs and their sources. A source text loads when its two kinds of brackets occur equally
  often, and the program it loads as is the one whose canonical source is the text without its
  comments. So loading undoes writing, writing undoes loading up to comments, and no two programs
  have one canonical source.
Imports: Crosswire.Program
Main exports: Instruction.characters, withoutComments, Program.load_eq_ok_iff,
  Program.load_eq_error_iff, Program.load_inverts_canonical
-/
import Crosswire.Program

namespace Crosswire

/-! ### Instruction characters -/

namespace Instruction

/-- The characters that spell an instruction. -/
def characters : List Char :=
  all.map toChar

theorem ofChar?_eq_some_iff {character : Char} {instruction : Instruction} :
    ofChar? character = some instruction ↔ instruction.toChar = character := by
  constructor
  · exact toChar_of_ofChar?
  · rintro rfl
    exact ofChar?_toChar instruction

/-- The instruction characters are the ones that read as an instruction; all others are comments. -/
theorem mem_characters_iff {character : Char} :
    character ∈ characters ↔ ∃ instruction, ofChar? character = some instruction := by
  simp only [characters, List.mem_map, mem_all, true_and, ofChar?_eq_some_iff]

theorem eq_of_map_toChar_eq {first second : List Instruction}
    (same : first.map toChar = second.map toChar) : first = second := by
  rw [← Program.filterMap_ofChar?_map_toChar first, same, Program.filterMap_ofChar?_map_toChar]

end Instruction

/-- The text that is left when everything but the instruction characters is removed. -/
def withoutComments (source : String) : String :=
  String.ofList (source.toList.filter (· ∈ Instruction.characters))

/-- Writing the instructions of a text gives the text without its comments. -/
theorem map_toChar_instructionsOf (source : String) :
    (instructionsOf source).map Instruction.toChar = (withoutComments source).toList := by
  rw [instructionsOf_eq_filterMap, withoutComments, String.toList_ofList]
  induction source.toList with
  | nil => rfl
  | cons character rest ih =>
    cases reads : Instruction.ofChar? character with
    | some instruction =>
      have spells : character ∈ Instruction.characters :=
        Instruction.mem_characters_iff.2 ⟨instruction, reads⟩
      rw [List.filterMap_cons_some reads, List.map_cons, Instruction.toChar_of_ofChar? reads, ih,
        List.filter_cons_of_pos (by simpa using spells)]
    | none =>
      have comment : character ∉ Instruction.characters := by
        simp [Instruction.mem_characters_iff, reads]
      rw [List.filterMap_cons_none reads, ih, List.filter_cons_of_neg (by simpa using comment)]

/-- An instruction occurs in a text as often as its character, wherever that stands. -/
theorem count_instructionsOf (source : String) (instruction : Instruction) :
    (instructionsOf source).count instruction = source.toList.count instruction.toChar := by
  rw [instructionsOf_eq_filterMap, List.count_filterMap, List.count_eq_countP]
  apply List.countP_congr
  intro character _
  simp only [beq_iff_eq, Instruction.ofChar?_eq_some_iff]
  exact eq_comm

namespace Program

theorem ofInstructions_eq_ok_iff {instructions : List Instruction} {program : Program} :
    ofInstructions instructions = .ok program ↔ instructions = program.instructions := by
  unfold ofInstructions
  split
  case isTrue balanced =>
    constructor
    · intro accepted
      cases accepted
      rfl
    · rintro rfl
      rfl
  case isFalse unbalanced =>
    constructor
    · intro accepted
      cases accepted
    · rintro rfl
      exact absurd program.balanced unbalanced

theorem toList_canonical (program : Program) :
    program.canonical.toList = program.instructions.map Instruction.toChar :=
  String.toList_ofList

/-- A text loads as the program whose canonical source it is when its comments are removed. -/
theorem load_eq_ok_iff {source : String} {program : Program} :
    load source = .ok program ↔ program.canonical = withoutComments source := by
  rw [load, ofInstructions_eq_ok_iff, ← String.toList_inj, toList_canonical,
    ← map_toChar_instructionsOf]
  constructor
  · intro same
    rw [same]
  · intro same
    exact (Instruction.eq_of_map_toChar_eq same).symm

/-- A text that does not load has different numbers of brackets, and the failure carries them. -/
theorem load_eq_error_iff {source : String} {mismatch : BracketMismatch} :
    load source = .error mismatch ↔
      source.toList.count '(' ≠ source.toList.count ')' ∧
        mismatch = ⟨source.toList.count '(', source.toList.count ')'⟩ := by
  have opens := count_instructionsOf source .loopStart
  have closes := count_instructionsOf source .loopEnd
  simp only [Instruction.toChar] at opens closes
  simp only [load, ofInstructions, ← opens, ← closes]
  split
  case isTrue balanced => simp [balanced]
  case isFalse unbalanced => simp [unbalanced, eq_comm]

/-- A text loads exactly when its two kinds of brackets are equally many, in whatever order. -/
theorem exists_load_eq_ok_iff (source : String) :
    (∃ program, load source = .ok program) ↔
      source.toList.count '(' = source.toList.count ')' := by
  cases loaded : load source with
  | ok program =>
    have agree : source.toList.count '(' = source.toList.count ')' := by
      apply Decidable.byContradiction
      intro differ
      have fails := load_eq_error_iff.2 ⟨differ, rfl⟩
      rw [loaded] at fails
      cases fails
    exact ⟨fun _ => agree, fun _ => ⟨program, rfl⟩⟩
  | error mismatch =>
    have differ := (load_eq_error_iff.1 loaded).1
    constructor
    · rintro ⟨_, impossible⟩
      cases impossible
    · intro agree
      exact absurd agree differ

theorem load_canonical (program : Program) : load program.canonical = .ok program := by
  rw [load, instructionsOf_canonical, ofInstructions_eq_ok_iff]

theorem loopCount_of_load {source : String} {program : Program}
    (loaded : load source = .ok program) : program.loopCount = source.toList.count '(' := by
  rw [loopCount, ← ofInstructions_eq_ok_iff.1 loaded, count_instructionsOf]
  rfl

/-- Loading and writing are inverse up to comments. -/
theorem load_inverts_canonical :
    (∀ source : String,
      ((∃ program, load source = .ok program) ↔
        source.toList.count '(' = source.toList.count ')') ∧
      (source.toList.count '(' ≠ source.toList.count ')' →
        load source = .error ⟨source.toList.count '(', source.toList.count ')'⟩) ∧
      ∀ program, load source = .ok program →
        program.canonical = withoutComments source ∧
        load (withoutComments source) = .ok program ∧
        program.loopCount = source.toList.count '(') ∧
    (∀ program : Program, load program.canonical = .ok program) ∧
    ∀ first second : Program, first.canonical = second.canonical → first = second := by
  refine ⟨fun source => ⟨exists_load_eq_ok_iff source, ?_, ?_⟩, load_canonical, ?_⟩
  · intro differ
    exact load_eq_error_iff.2 ⟨differ, rfl⟩
  · intro program loaded
    have written := load_eq_ok_iff.1 loaded
    refine ⟨written, ?_, loopCount_of_load loaded⟩
    rw [← written, load_canonical]
  · intro first second same
    have loads := load_canonical first
    rw [same, load_canonical] at loads
    exact (Except.ok.inj loads).symm

/-- Brackets in the wrong order between comments of several bytes load, and write as themselves. -/
theorem load_inverts_canonical_reversed :
    ∃ program, load "ü)é(ß" = .ok program ∧ program.canonical = ")(" ∧
      load ")(" = .ok program ∧ program.loopCount = 1 := by
  have text := load_inverts_canonical.1 "ü)é(ß"
  have stripped : withoutComments "ü)é(ß" = ")(" := by decide
  obtain ⟨program, loaded⟩ := text.1.2 (by decide)
  obtain ⟨written, reloaded, loops⟩ := text.2.2 program loaded
  rw [stripped] at written reloaded
  exact ⟨program, loaded, written, reloaded, loops⟩

end Program

end Crosswire
