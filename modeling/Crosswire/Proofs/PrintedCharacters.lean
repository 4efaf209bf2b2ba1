/-
Module: Crosswire.Proofs.PrintedCharacters
Purpose: Which values look the same in print. A word prints as the character of its code unit, the residue
  modulo 65536, and every code unit has a character of its own but for the surrogates: they have none and
  all borrow U+FFFD, which is also the character of a unit. So two words look the same exactly if they
  have one code unit, or if both show U+FFFD. A truth value takes more than one character, and never looks
  like a word.
Imports: Crosswire.Value, Mathlib (congruences of integers)
Main exports: Value.natCast_codeUnit, Value.codeUnit_eq_iff, Value.toNat_unitChar,
  Value.replacementUnits, Value.unitChar_eq_replacement_iff, Value.unitChar_eq_iff,
  Value.printed_alike
-/
import Mathlib.Data.Int.ModEq
import Crosswire.Value

namespace Crosswire

namespace Value

/-! ### Code units -/

theorem natCast_codeUnit (word : Int32) : (codeUnit word : Int) = word.toInt % 65536 :=
  Int.toNat_of_nonneg (Int.emod_nonneg _ (by decide))

theorem codeUnit_lt (word : Int32) : codeUnit word < 65536 := by
  have below := Int.emod_lt_of_pos word.toInt (show (0 : Int) < 65536 by decide)
  rw [← natCast_codeUnit] at below
  exact Int.ofNat_lt.1 below

/-- The code unit keeps of a word what congruence modulo 65536 keeps. -/
theorem codeUnit_eq_iff (left right : Int32) :
    codeUnit left = codeUnit right ↔ left.toInt ≡ right.toInt [ZMOD 65536] := by
  rw [Int.ModEq, ← natCast_codeUnit, ← natCast_codeUnit, Int.ofNat_inj]

theorem isSurrogate_iff (unit : Nat) : isSurrogate unit = true ↔ 0xD800 ≤ unit ∧ unit ≤ 0xDFFF := by
  simp [isSurrogate]

/-! ### Characters of code units -/

/-- A code unit is the code point of its character, unless it is a surrogate. -/
theorem toNat_unitChar {unit : Nat} (narrow : unit < 65536) :
    (unitChar unit).toNat = if 0xD800 ≤ unit ∧ unit ≤ 0xDFFF then 0xFFFD else unit := by
  simp only [unitChar, isSurrogate_iff]
  split
  case isTrue surrogate => rfl
  case isFalse scalar =>
    have valid : unit.isValidChar := by
      unfold Nat.isValidChar
      omega
    rw [Char.ofNat, dif_pos valid]
    rfl

/-- The characters of code units go up to U+FFFF and leave the surrogates out. -/
theorem toNat_unitChar_bounds {unit : Nat} (narrow : unit < 65536) :
    (unitChar unit).toNat ≤ 0xFFFF ∧
      ¬ (0xD800 ≤ (unitChar unit).toNat ∧ (unitChar unit).toNat ≤ 0xDFFF) := by
  rw [toNat_unitChar narrow]
  split
  case isTrue surrogate => decide
  case isFalse scalar => exact ⟨Nat.le_of_lt_succ narrow, scalar⟩

/-- The residues of the words that show U+FFFD: the surrogates, and U+FFFD itself. -/
def replacementUnits : Set Int :=
  { residue | 0xD800 ≤ residue ∧ residue ≤ 0xDFFF ∨ residue = 0xFFFD }

theorem mem_replacementUnits (unit : Nat) :
    (unit : Int) ∈ replacementUnits ↔ (0xD800 ≤ unit ∧ unit ≤ 0xDFFF) ∨ unit = 0xFFFD := by
  constructor
  · rintro (⟨low, high⟩ | same)
    · exact .inl ⟨Int.ofNat_le.1 low, Int.ofNat_le.1 high⟩
    · exact .inr (Int.ofNat_inj.1 same)
  · rintro (⟨low, high⟩ | rfl)
    · exact .inl ⟨Int.ofNat_le.2 low, Int.ofNat_le.2 high⟩
    · exact .inr rfl

theorem unitChar_eq_replacement_iff {unit : Nat} (narrow : unit < 65536) :
    unitChar unit = '\uFFFD' ↔ (unit : Int) ∈ replacementUnits := by
  rw [← Char.toNat_inj, toNat_unitChar narrow, mem_replacementUnits]
  split
  case isTrue surrogate => exact ⟨fun _ => .inl surrogate, fun _ => rfl⟩
  case isFalse scalar =>
    constructor
    · exact .inr
    · rintro (surrogate | same)
      · exact absurd surrogate scalar
      · exact same

/-- A code unit that does not show U+FFFD can be told from its character. -/
theorem toNat_unitChar_of_ne {unit : Nat} (narrow : unit < 65536)
    (shown : unitChar unit ≠ '\uFFFD') : (unitChar unit).toNat = unit := by
  rw [toNat_unitChar narrow]
  apply if_neg
  intro surrogate
  apply shown
  rw [unitChar, if_pos ((isSurrogate_iff unit).2 surrogate)]

/-- Two code units have one character only where both show U+FFFD. -/
theorem unitChar_eq_iff {left right : Nat} (narrow : left < 65536) (narrow' : right < 65536) :
    unitChar left = unitChar right ↔
      left = right ∨ (left : Int) ∈ replacementUnits ∧ (right : Int) ∈ replacementUnits := by
  rw [← unitChar_eq_replacement_iff narrow, ← unitChar_eq_replacement_iff narrow']
  constructor
  · intro same
    by_cases replaced : unitChar left = '\uFFFD'
    · exact .inr ⟨replaced, same.symm.trans replaced⟩
    · left
      calc
        left = (unitChar left).toNat := (toNat_unitChar_of_ne narrow replaced).symm
        _ = (unitChar right).toNat := congrArg Char.toNat same
        _ = right := toNat_unitChar_of_ne narrow' fun other => replaced (same.trans other)
  · rintro (rfl | ⟨first, second⟩)
    · rfl
    · exact first.trans second.symm

/-! ### Printed values -/

theorem toList_text_integer (word : Int32) :
    (integer word).text.toList = [unitChar (codeUnit word)] :=
  String.toList_ofList

theorem text_eq_iff (left right : Int32) :
    (integer left).text = (integer right).text ↔
      unitChar (codeUnit left) = unitChar (codeUnit right) := by
  rw [← String.toList_inj, toList_text_integer, toList_text_integer, List.singleton_inj]

/-- A truth value is spelled out, in more than one character. -/
theorem length_text_boolean (truth : Bool) : 1 < (boolean truth).text.toList.length := by
  cases truth <;> decide

/-- A word prints as one character, never a surrogate, whose code point is the residue of the word modulo
65536 or stands in for a residue that is a surrogate. Words that print the same differ by a multiple of
65536 or both show the stand-in, and no word prints as a truth value does. -/
theorem printed_alike (left right : Int32) :
    (∃ character, (integer left).text.toList = [character] ∧
      character.toNat ≤ 0xFFFF ∧ ¬ (0xD800 ≤ character.toNat ∧ character.toNat ≤ 0xDFFF) ∧
      (character.toNat : Int) =
        if 0xD800 ≤ left.toInt % 65536 ∧ left.toInt % 65536 ≤ 0xDFFF then 0xFFFD
        else left.toInt % 65536) ∧
    ((integer left).text = (integer right).text ↔
      left.toInt ≡ right.toInt [ZMOD 65536] ∨
        left.toInt % 65536 ∈ replacementUnits ∧ right.toInt % 65536 ∈ replacementUnits) ∧
    ∀ truth, (integer left).text ≠ (boolean truth).text := by
  refine ⟨⟨unitChar (codeUnit left), toList_text_integer left, ?_⟩, ?_, ?_⟩
  · obtain ⟨narrow, scalar⟩ := toNat_unitChar_bounds (codeUnit_lt left)
    refine ⟨narrow, scalar, ?_⟩
    rw [toNat_unitChar (codeUnit_lt left), ← natCast_codeUnit]
    norm_cast
  · rw [text_eq_iff, unitChar_eq_iff (codeUnit_lt left) (codeUnit_lt right), codeUnit_eq_iff,
      natCast_codeUnit, natCast_codeUnit]
  · intro truth same
    have longer := length_text_boolean truth
    rw [← same, toList_text_integer] at longer
    exact Nat.lt_irrefl 1 longer

end Value

end Crosswire
