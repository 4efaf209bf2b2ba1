/-
Module: Crosswire.Proofs.JsonForm
Purpose: The JSON form says where it ends. Reading a text that was written gives the element back and
  leaves what follows; any shorter beginning of it is found to be incomplete; and a text with anything but
  blanks behind it is ill-formed. The laws are carried from quoted names and marks through variants to
  lists, by a rule for reading one thing after another. Numbers alone do not say where they end: the
  beginning of a number may be another number, and what makes it incomplete is the brace that has to
  follow.
Imports: Crosswire.Codec.JsonText, Crosswire.Proofs.SelfDelimitingForm
Main exports: JsonText.Reads, JsonText.ReadsOpen, JsonText.Reads.andThen, JsonText.ReadsOpen.closed,
  JsonText.readsOpen_word, JsonText.reads_named, JsonText.reads_tagged, JsonText.reads_value,
  JsonText.reads_instruction, JsonText.reads_list, JsonText.SelfDelimiting,
  JsonText.json_forms_delimited
-/
import Crosswire.Codec.JsonText
import Crosswire.Proofs.SelfDelimitingForm

namespace Crosswire.JsonText

variable {α β : Type}

/-- `read` takes this text for this element, whatever follows, and every shorter beginning of it for
incomplete. -/
structure Reads (read : Reader α) (text : List Char) (element : α) : Prop where
  complete : ∀ rest, read (text ++ rest) = .ok (element, rest)
  cut : ∀ beginning missing, missing ≠ [] → text = beginning ++ missing →
    read beginning = .error .incomplete

/-- `read` takes this text for this element if a closing brace follows. A beginning of it is incomplete,
unless it is the whole form of something. -/
structure ReadsOpen (read : Reader α) (text : List Char) (element : α) : Prop where
  complete : ∀ rest, read (text ++ '\x7d' :: rest) = .ok (element, '\x7d' :: rest)
  cut : ∀ beginning missing, text = beginning ++ missing →
    read beginning = .error .incomplete ∨ ∃ other, read beginning = .ok (other, [])

/-! ### One after another -/

/-- Read something, and then what it asks for. -/
def Reader.andThen (first : Reader α) (second : α → Reader β) : Reader β := fun text =>
  match first text with
  | .error error => .error error
  | .ok (head, rest) => second head rest

/-- Read nothing more. -/
def Reader.done (element : α) : Reader α := fun text =>
  .ok (element, text)

namespace Reads

variable {first : Reader α} {second : α → Reader β} {text more : List Char} {head : α} {element : β}

theorem done (element : α) : Reads (Reader.done element) [] element where
  complete _ := rfl
  cut _ _ proper form := absurd (List.append_eq_nil_iff.1 form.symm).2 proper

theorem andThen (reads : Reads first text head) (onward : Reads (second head) more element) :
    Reads (first.andThen second) (text ++ more) element where
  complete rest := by
    rw [List.append_assoc]
    simp only [Reader.andThen, reads.complete]
    exact onward.complete rest
  cut beginning missing proper form := by
    rcases Binary.append_cut form with ⟨gone, some, short⟩ | ⟨part, rfl, short⟩
    · simp only [Reader.andThen, reads.cut beginning gone some short]
    · simp only [Reader.andThen, reads.complete]
      exact onward.cut part missing proper short

theorem andThen_done (reads : Reads first text head) (build : α → β) :
    Reads (first.andThen fun head => Reader.done (build head)) text (build head) := by
  have nothing : Reads ((fun head => Reader.done (build head)) head) [] (build head) := .done _
  rw [← List.append_nil text]
  exact reads.andThen nothing

/-- The first character decides how to go on. -/
theorem cons {read next : Reader α} {character : Char} (empty : read [] = .error .incomplete)
    (step : ∀ rest, read (character :: rest) = next rest) (reads : Reads next text head) :
    Reads read (character :: text) head where
  complete rest := by
    rw [List.cons_append, step]
    exact reads.complete rest
  cut beginning missing proper form := by
    cases beginning with
    | nil => exact empty
    | cons found beginning =>
      obtain ⟨rfl, short⟩ := List.cons.inj form
      rw [step]
      exact reads.cut beginning missing proper short

/-- What ends by itself also ends before a brace. -/
theorem readsOpen (reads : Reads first text head) : ReadsOpen first text head where
  complete rest := reads.complete _
  cut beginning missing form := by
    by_cases whole : missing = []
    · refine .inr ⟨head, ?_⟩
      have read := reads.complete []
      rwa [form, whole, List.append_nil, List.append_nil] at read
    · exact .inl (reads.cut beginning missing whole form)

end Reads

/-! ### Marks -/

/-- Where the end is missing, the last character is. -/
theorem exists_append_of_concat {text beginning missing : List Char} {last : Char}
    (proper : missing ≠ []) (form : text ++ [last] = beginning ++ missing) :
    ∃ part, text = beginning ++ part := by
  refine ⟨missing.dropLast, ?_⟩
  rw [← List.dropLast_append_of_ne_nil proper, ← form, List.dropLast_concat]

theorem skipBlanks_nil : skipBlanks [] = [] := rfl

theorem skipBlanks_cons {character : Char} (visible : isBlank character = false) (rest : List Char) :
    skipBlanks (character :: rest) = character :: rest :=
  List.dropWhile_cons_of_neg (by simp [visible])

theorem reads_exactly (expected : List Char) : Reads (readExactly expected) expected () := by
  induction expected with
  | nil => exact .done ()
  | cons character others ih => exact .cons rfl (fun rest => if_pos rfl) ih

theorem reads_mark {mark : Char} (visible : isBlank mark = false) :
    Reads (readMark mark) [mark] () := by
  refine .cons rfl (fun rest => ?_) (.done ())
  rw [readMark, skipBlanks_cons visible, readExactly, if_pos rfl, readExactly, Reader.done]

/-- A brace closes what does not end by itself. -/
theorem ReadsOpen.closed {read : Reader α} {text : List Char} {element : α}
    (reads : ReadsOpen read text element) :
    Reads (read.andThen fun element => (readMark '\x7d').andThen fun _ => Reader.done element)
      (text ++ ['\x7d']) element where
  complete rest := by
    have close : readMark '\x7d' ('\x7d' :: rest) = .ok ((), rest) :=
      (reads_mark (by decide)).complete rest
    simp only [List.append_assoc, List.singleton_append, Reader.andThen, reads.complete, close,
      Reader.done]
  cut beginning missing proper form := by
    obtain ⟨part, short⟩ := exists_append_of_concat proper form
    rcases reads.cut beginning part short with incomplete | ⟨other, read⟩
    · simp only [Reader.andThen, incomplete]
    · have unclosed : readMark '\x7d' [] = .error .incomplete := rfl
      simp only [Reader.andThen, read, unclosed]

/-- A payload is read for what is built from it. -/
theorem ReadsOpen.build {read : Reader α} {built : Reader β} {text : List Char} {element : α}
    (reads : ReadsOpen read text element) (build : α → β)
    (builds : built = read.andThen fun element => Reader.done (build element)) :
    ReadsOpen built text (build element) where
  complete rest := by
    simp only [builds, Reader.andThen, reads.complete, Reader.done]
  cut beginning missing form := by
    rcases reads.cut beginning missing form with incomplete | ⟨other, read⟩
    · simp only [builds, Reader.andThen, incomplete, true_or]
    · refine .inr ⟨build other, ?_⟩
      simp only [builds, Reader.andThen, read, Reader.done]

/-! ### Names -/

/-- The characters that stand for themselves in a string. -/
def isLiteral (character : Char) : Bool :=
  character ≠ '"' ∧ character ≠ '\\' ∧ ¬ character < ' '

theorem readContent_cons {character : Char} (literal : isLiteral character) (rest : List Char) :
    readContent .plain (character :: rest) =
      (readContent .plain).andThen (fun content => Reader.done (character :: content)) rest := by
  obtain ⟨unquoted, unescaped, printable⟩ := of_decide_eq_true literal
  simp only [readContent, unquoted, and_false, if_false, stringStep, unescaped, printable,
    Option.toList, List.singleton_append, Reader.andThen]
  cases readContent .plain rest <;> rfl

theorem reads_content {content : List Char} (literal : content.all isLiteral) :
    Reads (readContent .plain) (content ++ ['"']) content := by
  induction content with
  | nil => exact .cons rfl (fun rest => if_pos ⟨rfl, rfl⟩) (.done [])
  | cons character content ih =>
    rw [List.all_cons, Bool.and_eq_true] at literal
    obtain ⟨first, others⟩ := literal
    exact .cons rfl (readContent_cons first) ((ih others).andThen_done (character :: ·))

/-- A name in quotes is the key that selects its variant. -/
theorem reads_key {select : String → Option (Variant α)} {name : String} {variant : Variant α}
    (literal : name.toList.all isLiteral) (selects : select name = some variant) :
    Reads (readKey select) ('"' :: name.toList ++ ['"']) variant := by
  have content := reads_content literal
  constructor
  · intro rest
    have read := content.complete rest
    rw [List.append_assoc, List.singleton_append] at read
    simp only [List.cons_append, List.append_assoc, List.nil_append, readKey,
      skipBlanks_cons (show isBlank '"' = false from rfl), readString, read, String.ofList_toList,
      selects]
  · intro beginning missing proper form
    cases beginning with
    | nil => rfl
    | cons found beginning =>
      obtain ⟨rfl, short⟩ := List.cons.inj form
      simp only [readKey, skipBlanks_cons (show isBlank '"' = false from rfl), readString,
        content.cut beginning missing proper short]

/-! ### Variants -/

section Variants

variable {select : String → Option (Variant α)} {name : String} {element : α}

/-- A name alone stands for a variant without payload. -/
theorem reads_named (literal : name.toList.all isLiteral)
    (selects : select name = some (.alone element)) :
    Reads (readVariant select) ('"' :: name.toList ++ ['"']) element := by
  have key := reads_key literal selects
  constructor
  · intro rest
    have read := key.complete rest
    simp only [List.cons_append] at read ⊢
    simp only [readVariant, skipBlanks_cons (show isBlank '"' = false from rfl), read]
  · intro beginning missing proper form
    have read := key.cut beginning missing proper form
    cases beginning with
    | nil => rfl
    | cons found beginning =>
      obtain ⟨rfl, -⟩ := List.cons.inj form
      simp only [readVariant, skipBlanks_cons (show isBlank '"' = false from rfl), read]

/-- What stands behind the key of an object: a colon, the payload and the closing brace. -/
def readTagged (variant : Variant α) : Reader α :=
  (readMark ':').andThen fun _ =>
    variant.read.andThen fun element => (readMark '\x7d').andThen fun _ => Reader.done element

theorem readVariant_brace (select : String → Option (Variant α)) (rest : List Char) :
    readVariant select ('\x7b' :: rest) = (readKey select).andThen readTagged rest := by
  simp only [readVariant, skipBlanks_cons (show isBlank '\x7b' = false from rfl), readTagged,
    Reader.andThen, Reader.done]
  rcases readKey select rest with error | ⟨variant, rest⟩
  · rfl
  dsimp only
  rcases readMark ':' rest with error | ⟨colon, rest⟩
  · rfl
  dsimp only
  rcases variant.read rest with error | ⟨payload, rest⟩
  · rfl
  dsimp only
  cases readMark '\x7d' rest <;> rfl

/-- A name with a payload behind it stands for the variant that takes the payload. -/
theorem reads_tagged {payload : Reader α} {text : List Char}
    (literal : name.toList.all isLiteral)
    (selects : select name = some (.carrying payload)) (reads : ReadsOpen payload text element) :
    Reads (readVariant select) (writeTagged name text) element := by
  have colon : Reads (readMark ':') [':'] () := reads_mark (by decide)
  have behind : Reads (readTagged (.carrying payload)) ([':'] ++ (text ++ ['\x7d'])) element :=
    colon.andThen reads.closed
  have inside := (reads_key literal selects).andThen behind
  have form : writeTagged name text =
      '\x7b' :: ('"' :: name.toList ++ ['"'] ++ ([':'] ++ (text ++ ['\x7d']))) := by
    simp [writeTagged]
  rw [form]
  exact .cons rfl (readVariant_brace select) inside

end Variants

/-! ### Decimal digits -/

section Digits

variable {number : Nat}

/-- A beginning of the digits of a number has the digits of a number, and only zero begins with zero. -/
theorem exists_toDigits_of_append {beginning missing : List Char} (some : beginning ≠ [])
    (form : Nat.toDigits 10 number = beginning ++ missing) :
    ∃ shorter ≤ number, beginning = Nat.toDigits 10 shorter ∧ (0 < number → 0 < shorter) := by
  -- Where digits are missing, the last one is, and the others are those of a tenth of the number.
  induction number using Nat.strongRecOn generalizing missing with
  | ind number ih =>
    by_cases whole : missing = []
    · refine ⟨number, Nat.le_refl number, ?_, id⟩
      rw [form, whole, List.append_nil]
    rw [Nat.toDigits_eq_if (by decide)] at form
    split at form
    · obtain ⟨part, none⟩ := exists_append_of_concat whole (show [] ++ [_] = _ from form)
      exact absurd (List.append_eq_nil_iff.1 none.symm).1 some
    · next large =>
      obtain ⟨part, short⟩ := exists_append_of_concat whole form
      obtain ⟨shorter, small, digits, positive⟩ := ih (number / 10) (by omega) short
      exact ⟨shorter, by omega, digits, fun _ => positive (by omega)⟩

theorem eq_nil_of_toDigits_eq_zero_cons {more : List Char}
    (form : Nat.toDigits 10 number = '0' :: more) : more = [] := by
  obtain ⟨shorter, -, digits, positive⟩ :=
    exists_toDigits_of_append (List.cons_ne_nil '0' []) form
  have zero : shorter = 0 := by
    rw [← Nat.ofDigitChars_ten_toDigits (n := shorter), ← digits]
    rfl
  have none : number = 0 := by omega
  rw [none, Nat.toDigits_zero] at form
  exact (List.cons.inj form).2.symm

theorem le_ofDigitChars (digits : List Char) (number : Nat) :
    number ≤ Nat.ofDigitChars 10 digits number := by
  induction digits generalizing number with
  | nil => exact Nat.le_refl number
  | cons digit digits ih =>
    rw [Nat.ofDigitChars_cons]
    exact Nat.le_trans (by omega) (ih _)

/-- Digits of a number that fits into 64 bits all fit. -/
theorem fitDigits_of_lt {digits : List Char}
    (fits : Nat.ofDigitChars 10 digits number < unsignedBound) :
    fitDigits number digits = (Nat.ofDigitChars 10 digits number, []) := by
  induction digits generalizing number with
  | nil => rfl
  | cons digit digits ih =>
    rw [Nat.ofDigitChars_cons] at fits ⊢
    have room : 10 * number + digitValue digit < unsignedBound :=
      Nat.lt_of_le_of_lt (le_ofDigitChars digits _) fits
    rw [fitDigits, if_pos room]
    exact ih fits

/-- What may stand behind a number: a closing brace, or nothing at all if the text is cut short. -/
def EndsNumber (rest : List Char) : Prop :=
  rest = [] ∨ ∃ behind, rest = '\x7d' :: behind

theorem readDigits_append {digits rest : List Char} (some : digits ≠ [])
    (decimal : ∀ character ∈ digits, character.isDigit) (ends : EndsNumber rest) :
    readDigits (digits ++ rest) = .ok (digits, rest) := by
  have nothing : rest.takeWhile Char.isDigit = [] ∧ rest.dropWhile Char.isDigit = rest := by
    rcases ends with rfl | ⟨behind, rfl⟩
    · exact ⟨rfl, rfl⟩
    · exact ⟨rfl, rfl⟩
  obtain ⟨first, others, rfl⟩ := List.exists_cons_of_ne_nil some
  rw [readDigits, List.takeWhile_append_of_pos decimal, List.dropWhile_append_of_pos decimal,
    nothing.1, nothing.2, List.append_nil]

theorem readWhole_toDigits (number : Nat) {rest : List Char} (ends : EndsNumber rest) :
    readWhole (Nat.toDigits 10 number ++ rest) = .ok (Nat.toDigits 10 number, rest) := by
  have decimal : ∀ character ∈ Nat.toDigits 10 number, character.isDigit := fun _ member =>
    Nat.isDigit_of_mem_toDigits (by decide) (by decide) member
  rw [readWhole, readDigits_append Nat.toDigits_ne_nil decimal ends]
  split
  · next leading =>
    obtain ⟨zero, -⟩ := Prod.mk.inj (Except.ok.inj leading)
    cases eq_nil_of_toDigits_eq_zero_cons zero
  · rfl

end Digits

/-! ### Words -/

/-- The integers that a word can hold. -/
def IsWord (number : Int) : Prop :=
  Int32.minValue.toInt ≤ number ∧ number ≤ Int32.maxValue.toInt

theorem isWord_iff (number : Int) :
    IsWord number ↔ -2147483648 ≤ number ∧ number ≤ 2147483647 :=
  Iff.rfl

/-- Numbers below this have at most 53 binary digits. -/
def exactBound : Nat := 0x20000000000000

theorem nearest_of_log2_le {number : Nat} (small : number.log2 ≤ 52) :
    Double.nearest number = number := by
  have unit : number.log2 - 52 = 0 := by omega
  simp [Double.nearest, unit, Nat.mod_one]

/-- No number of up to 53 bits is too large for double precision. -/
theorem isHuge_of_lt {number : Nat} (small : number < exactBound) (negative : Bool) :
    Decimal.isHuge ⟨negative, number, 0, true⟩ = false := by
  by_cases zero : number = 0
  · simp only [Decimal.isHuge, zero, if_true]
  have exact : Double.nearest number = number := by
    apply nearest_of_log2_le
    exact Nat.le_of_lt_succ ((Nat.log2_lt zero).2 small)
  have one : Double.nearest (Nat.pow 10 0) = 1 := by decide
  have below : exactBound ≤ Double.bound := by decide +kernel
  have huge : Decimal.isHuge ⟨negative, number, 0, true⟩ =
      (decide (Double.maxExponent < 0) ||
        decide (Double.bound ≤ Double.nearest number * Double.nearest (Nat.pow 10 0))) :=
    if_neg zero
  rw [huge, exact, one, Nat.mul_one, decide_eq_false (by omega), decide_eq_false (by omega)]
  rfl

theorem readUnsigned_toDigits {number : Nat} (small : number < exactBound) (negative : Bool)
    {rest : List Char} (ends : EndsNumber rest) :
    readUnsigned negative (Nat.toDigits 10 number ++ rest) =
      .ok (⟨negative, number, 0, true⟩, rest) := by
  have fits : fitDigits 0 (Nat.toDigits 10 number) = (number, []) := by
    have value := Nat.ofDigitChars_ten_toDigits (n := number)
    rw [fitDigits_of_lt, value]
    rw [value]
    exact Nat.lt_trans small (by decide)
  have parts : Decimal.ofParts negative (Nat.toDigits 10 number) none none =
      ⟨negative, number, 0, true⟩ := by
    simp [Decimal.ofParts, fits, fitDigits]
  have fraction : readFraction rest = .ok (none, rest) := by
    rcases ends with rfl | ⟨behind, rfl⟩ <;> rfl
  have exponent : readExponent rest = .ok (none, rest) := by
    rcases ends with rfl | ⟨behind, rfl⟩ <;> rfl
  simp only [readUnsigned, readWhole_toDigits number ends, fraction, exponent, parts,
    isHuge_of_lt small negative, Bool.false_eq_true, if_false]

theorem exists_digit_cons_toDigits (number : Nat) :
    ∃ first others, Nat.toDigits 10 number = first :: others ∧ first.isDigit := by
  obtain ⟨first, others, digits⟩ :=
    List.exists_cons_of_ne_nil (Nat.toDigits_ne_nil (n := number) (b := 10))
  refine ⟨first, others, digits, Nat.isDigit_of_mem_toDigits (n := number) (b := 10) ?_ ?_ ?_⟩
  · decide
  · decide
  · rw [digits]
    exact List.mem_cons_self

theorem exists_cons_writeInt (number : Int) :
    ∃ first others, writeInt number = first :: others ∧ (first = '-' ∨ first.isDigit) := by
  obtain ⟨first, others, digits, decimal⟩ := exists_digit_cons_toDigits number.natAbs
  unfold writeInt
  split
  · exact ⟨'-', _, rfl, .inl rfl⟩
  · exact ⟨first, others, digits, .inr decimal⟩

theorem readNumber_writeInt {number : Int} (small : number.natAbs < exactBound) {rest : List Char}
    (ends : EndsNumber rest) :
    readNumber (writeInt number ++ rest) =
      .ok (⟨decide (number < 0), number.natAbs, 0, true⟩, rest) := by
  by_cases negative : number < 0
  · rw [writeInt, if_pos negative, decide_eq_true negative]
    exact readUnsigned_toDigits small true ends
  · rw [writeInt, if_neg negative, decide_eq_false negative]
    rw [← readUnsigned_toDigits small false ends]
    obtain ⟨first, others, digits, decimal⟩ := exists_digit_cons_toDigits number.natAbs
    rw [digits, List.cons_append, readNumber]
    -- The first digit is no minus.
    rintro text ⟨⟩
    cases decimal

theorem toInt?_natAbs (number : Int) :
    Decimal.toInt? ⟨decide (number < 0), number.natAbs, 0, true⟩ = some number := by
  by_cases negative : number < 0
  · have some : number.natAbs ≠ 0 := by omega
    have value : -(number.natAbs : Int) = number := by omega
    simp only [Decimal.toInt?, negative, decide_true, Bool.not_true, bne_self_eq_false, Bool.or_self,
      Bool.false_eq_true, if_false, some, value]
  · have value : (number.natAbs : Int) = number := by omega
    simp only [Decimal.toInt?, negative, decide_false, Bool.not_true, Bool.not_false,
      bne_self_eq_false, Bool.or_self, Bool.false_eq_true, if_false, if_true, value]

theorem isBlank_of_isDigit {character : Char} (decimal : character.isDigit) :
    isBlank character = false := by
  cases blank : isBlank character with
  | false => rfl
  | true =>
    simp only [isBlank, Bool.or_eq_true, beq_iff_eq] at blank
    rcases blank with ((rfl | rfl) | rfl) | rfl <;> cases decimal

/-- An integer that is a word is read as that word. -/
theorem readWord_writeInt {number : Int} (word : IsWord number) {rest : List Char}
    (ends : EndsNumber rest) :
    readWord (writeInt number ++ rest) = .ok (Int32.ofInt number, rest) := by
  have small : number.natAbs < exactBound := by
    rw [isWord_iff] at word
    unfold exactBound
    omega
  have read := readNumber_writeInt small ends
  obtain ⟨first, others, form, begins⟩ := exists_cons_writeInt number
  have visible : isBlank first = false := by
    rcases begins with rfl | decimal
    · rfl
    · exact isBlank_of_isDigit decimal
  rw [form, List.cons_append] at read ⊢
  simp only [readWord, skipBlanks_cons visible, begins, if_true, read, toInt?_natAbs]
  exact if_pos word

/-- A beginning of a word's form is empty, or a sign, or the form of a word. -/
theorem cut_writeInt {number : Int} (word : IsWord number) {beginning missing : List Char}
    (form : writeInt number = beginning ++ missing) :
    beginning = [] ∨ beginning = ['-'] ∨ ∃ shorter, IsWord shorter ∧ beginning = writeInt shorter := by
  by_cases none : beginning = []
  · exact .inl none
  right
  simp only [isWord_iff] at word ⊢
  by_cases negative : number < 0
  · rw [writeInt, if_pos negative] at form
    obtain ⟨character, digits, rfl⟩ := List.exists_cons_of_ne_nil none
    obtain ⟨rfl, short⟩ := List.cons.inj form
    by_cases alone : digits = []
    · exact .inl (alone ▸ rfl)
    · obtain ⟨shorter, less, rfl, positive⟩ := exists_toDigits_of_append alone short
      have below : -(shorter : Int) < 0 := by omega
      refine .inr ⟨-shorter, by omega, ?_⟩
      rw [writeInt, if_pos below, Int.natAbs_neg, Int.natAbs_natCast]
  · rw [writeInt, if_neg negative] at form
    obtain ⟨shorter, less, rfl, -⟩ := exists_toDigits_of_append none form
    refine .inr ⟨shorter, by omega, ?_⟩
    rw [writeInt, if_neg (by omega), Int.natAbs_natCast]

theorem readsOpen_word (word : Int32) : ReadsOpen readWord (writeInt word.toInt) word := by
  have range : IsWord word.toInt := ⟨word.minValue_le_toInt, word.toInt_le⟩
  constructor
  · intro rest
    have read := readWord_writeInt range (.inr ⟨rest, rfl⟩)
    rwa [Int32.ofInt_toInt] at read
  · intro beginning missing form
    rcases cut_writeInt range form with rfl | rfl | ⟨shorter, fits, rfl⟩
    · exact .inl rfl
    · exact .inl rfl
    · have read := readWord_writeInt fits (.inl rfl)
      rw [List.append_nil] at read
      exact .inr ⟨_, read⟩

/-! ### Values and instructions -/

theorem reads_true : Reads readTruth ['t', 'r', 'u', 'e'] true := by
  refine .cons rfl ?_ ((reads_exactly ['r', 'u', 'e']).andThen_done fun _ => true)
  intro rest
  simp only [readTruth, skipBlanks_cons (show isBlank 't' = false from rfl), Reader.andThen]
  cases readExactly ['r', 'u', 'e'] rest <;> rfl

theorem reads_false : Reads readTruth ['f', 'a', 'l', 's', 'e'] false := by
  refine .cons rfl ?_ ((reads_exactly ['a', 'l', 's', 'e']).andThen_done fun _ => false)
  intro rest
  simp only [readTruth, skipBlanks_cons (show isBlank 'f' = false from rfl), Reader.andThen]
  cases readExactly ['a', 'l', 's', 'e'] rest <;> rfl

theorem reads_integer (word : Int32) :
    Reads readValue (writeValue (.integer word)) (.integer word) := by
  refine reads_tagged rfl rfl ((readsOpen_word word).build Value.integer ?_)
  funext text
  rw [Reader.andThen]
  cases readWord text <;> rfl

theorem reads_boolean {truth : Bool} {form : List Char} (reads : Reads readTruth form truth) :
    Reads readValue (writeTagged "Boolean" form) (.boolean truth) := by
  refine reads_tagged rfl rfl (reads.readsOpen.build Value.boolean ?_)
  funext text
  rw [Reader.andThen]
  cases readTruth text <;> rfl

theorem reads_value (value : Value) : Reads readValue (writeValue value) value := by
  cases value with
  | integer word => exact reads_integer word
  | boolean truth =>
    cases truth with
    | true => exact reads_boolean reads_true
    | false => exact reads_boolean reads_false

theorem find?_name (instruction : Instruction) :
    Instruction.all.find? (·.name == instruction.name) = some instruction := by
  cases instruction <;> rfl

theorem reads_instruction (instruction : Instruction) :
    Reads readInstruction (writeInstruction instruction) instruction := by
  have literal : instruction.name.toList.all isLiteral := by
    cases instruction <;> rfl
  apply reads_named literal
  rw [find?_name]
  rfl

/-! ### Lists -/

/-- The text begins like an element of an array: with a character that is not skipped and does not close
the array. -/
def Begins (text : List Char) : Prop :=
  ∃ first others, text = first :: others ∧ isBlank first = false ∧ first ≠ ']'

theorem begins_writeValue (value : Value) : Begins (writeValue value) := by
  rcases value with word | (truth | truth)
  all_goals exact ⟨'\x7b', _, rfl, rfl, by decide⟩

theorem begins_writeInstruction (instruction : Instruction) : Begins (writeInstruction instruction) :=
  ⟨'"', _, rfl, rfl, by decide⟩

namespace Begins

variable {text beginning missing : List Char}

theorem append (begins : Begins text) (more : List Char) : Begins (text ++ more) := by
  obtain ⟨first, others, rfl, visible, inside⟩ := begins
  exact ⟨first, others ++ more, rfl, visible, inside⟩

theorem of_append (begins : Begins text) (form : text = beginning ++ missing) (some : beginning ≠ []) :
    Begins beginning := by
  obtain ⟨first, others, rfl, visible, inside⟩ := begins
  obtain ⟨found, part, rfl⟩ := List.exists_cons_of_ne_nil some
  obtain ⟨rfl, -⟩ := List.cons.inj form
  exact ⟨first, part, rfl, visible, inside⟩

/-- Behind the bracket of an array there is a first element. -/
theorem readList_eq (begins : Begins text) (read : Reader α) :
    readList read ('[' :: text) = readElements read text.length text := by
  obtain ⟨first, others, rfl, visible, inside⟩ := begins
  simp only [readList, skipBlanks_cons (show isBlank '[' = false from rfl), skipBlanks_cons visible]
  split
  · next none => cases none
  · next closed =>
    cases closed
    exact absurd rfl inside
  · rfl

/-- Behind a comma there is a further element. -/
theorem readElements_eq (begins : Begins text) {read : Reader α} {front : List Char} {first : α}
    (reads : read front = .ok (first, ',' :: text)) (fuel : Nat) :
    readElements read (fuel + 1) front =
      (readElements read fuel).andThen (fun others => Reader.done (first :: others)) text := by
  obtain ⟨character, others, rfl, visible, inside⟩ := begins
  simp only [readElements, reads, skipBlanks_cons (show isBlank ',' = false from rfl),
    skipBlanks_cons visible, Reader.andThen]
  split
  · next none => cases none
  · next closed =>
    cases closed
    exact absurd rfl inside
  · cases readElements read fuel (character :: others) <;> rfl

end Begins

section Lists

variable {write : α → List Char} {read : Reader α}

theorem begins_writeElements (begins : ∀ element, Begins (write element)) (element : α)
    (others : List α) : Begins (writeElements write (element :: others)) := by
  cases others with
  | nil => exact begins element
  | cons second others => exact (begins element).append _

/-- Every element takes at least one character. -/
theorem length_lt_writeElements (begins : ∀ element, Begins (write element)) (element : α)
    (others : List α) : others.length < (writeElements write (element :: others)).length := by
  induction others generalizing element with
  | nil =>
    obtain ⟨first, behind, form, -, -⟩ := begins element
    simp [writeElements, form]
  | cons second others ih =>
    have longer := ih second
    simp only [writeElements, List.length_append, List.length_cons] at longer ⊢
    omega

theorem writeElements_cons_cons_append (write : α → List Char) (element second : α) (others : List α)
    (more : List Char) :
    writeElements write (element :: second :: others) ++ more =
      write element ++ ',' :: (writeElements write (second :: others) ++ more) := by
  rw [writeElements, List.append_assoc, List.cons_append]
  exact List.cons_ne_nil _ _

theorem readElements_writeElements (reads : ∀ element, Reads read (write element) element)
    (begins : ∀ element, Begins (write element)) (element : α) (others : List α) {fuel : Nat}
    (enough : others.length < fuel) (rest : List Char) :
    readElements read fuel (writeElements write (element :: others) ++ ']' :: rest) =
      .ok (element :: others, rest) := by
  induction others generalizing element fuel with
  | nil =>
    obtain ⟨fuel, rfl⟩ := Nat.exists_eq_add_one_of_ne_zero (Nat.ne_zero_of_lt enough)
    have first := (reads element).complete (']' :: rest)
    simp only [writeElements, readElements, first,
      skipBlanks_cons (show isBlank ']' = false from rfl)]
  | cons second others ih =>
    obtain ⟨fuel, rfl⟩ := Nat.exists_eq_add_one_of_ne_zero (Nat.ne_zero_of_lt enough)
    have further := (begins_writeElements begins second others).append (']' :: rest)
    rw [writeElements_cons_cons_append, further.readElements_eq ((reads element).complete _) fuel,
      Reader.andThen, ih second (Nat.lt_of_succ_lt_succ enough)]
    rfl

/-- The elements of an array of which the end is missing are incomplete, however many may be read. -/
theorem readElements_cut (reads : ∀ element, Reads read (write element) element)
    (begins : ∀ element, Begins (write element)) (element : α) (others : List α) (fuel : Nat)
    {beginning missing : List Char} (proper : missing ≠ [])
    (form : writeElements write (element :: others) ++ [']'] = beginning ++ missing) :
    readElements read fuel beginning = .error .incomplete := by
  induction others generalizing element fuel beginning with
  | nil =>
    cases fuel with
    | zero => rfl
    | succ fuel =>
      obtain ⟨part, short⟩ := exists_append_of_concat proper form
      rcases (reads element).readsOpen.cut beginning part short with incomplete | ⟨other, whole⟩
      · simp only [readElements, incomplete]
      · simp only [readElements, whole, skipBlanks_nil]
  | cons second others ih =>
    cases fuel with
    | zero => rfl
    | succ fuel =>
      rw [writeElements_cons_cons_append] at form
      -- What is missing begins inside the first element, at the comma, or behind it.
      rcases Binary.append_cut form with ⟨gone, some, short⟩ | ⟨part, rfl, behind⟩
      · simp only [readElements, (reads element).cut beginning gone some short]
      · have first := (reads element).complete part
        cases part with
        | nil => simp only [readElements, first, skipBlanks_nil]
        | cons comma part =>
          obtain ⟨rfl, short⟩ := List.cons.inj behind
          by_cases none : part = []
          · subst none
            simp only [readElements, first, skipBlanks_cons (show isBlank ',' = false from rfl),
              skipBlanks_nil]
          · have further :=
              ((begins_writeElements begins second others).append [']']).of_append short none
            rw [further.readElements_eq first fuel, Reader.andThen, ih second fuel short]

/-- A list of which the elements say where they end says where it ends. -/
theorem reads_list (reads : ∀ element, Reads read (write element) element)
    (begins : ∀ element, Begins (write element)) (elements : List α) :
    Reads (readList read) (writeList write elements) elements := by
  rw [writeList, List.cons_append]
  refine .cons rfl (fun rest => rfl) ?_
  cases elements with
  | nil => exact .cons rfl (fun rest => rfl) (.done [])
  | cons element others =>
    have starts := begins_writeElements begins element others
    constructor
    · intro rest
      rw [List.append_assoc, List.singleton_append, (starts.append _).readList_eq]
      apply readElements_writeElements reads begins
      have longer := length_lt_writeElements begins element others
      rw [List.length_append]
      omega
    · intro beginning missing proper form
      by_cases none : beginning = []
      · rw [none]
        rfl
      · rw [((starts.append [']']).of_append form none).readList_eq]
        exact readElements_cut reads begins element others _ proper form

end Lists

/-! ### Whole texts -/

/-- `decode` tells apart the whole text of an element, a part of it and more than it. -/
structure SelfDelimiting (write : α → List Char) (read : Reader α) : Prop where
  /-- The text of an element is read back. -/
  complete : ∀ element, decode read (encode write element) = .ok element
  /-- A text of which the end is missing is incomplete. -/
  cut : ∀ element beginning missing, missing ≠ "" → encode write element = beginning ++ missing →
    decode read beginning = .error .incomplete
  /-- Behind the text of an element, nothing but blanks may stand first. -/
  trailing : ∀ element character rest, isBlank character = false →
    decode read (encode write element ++ String.ofList (character :: rest)) = .error .illFormed

theorem selfDelimiting_of_reads {write : α → List Char} {read : Reader α}
    (reads : ∀ element, Reads read (write element) element) : SelfDelimiting write read where
  complete element := by
    have whole := (reads element).complete []
    rw [List.append_nil] at whole
    simp only [decode, encode, String.toList_ofList, whole, skipBlanks_nil, if_true]
  cut element beginning missing proper form := by
    have split : write element = beginning.toList ++ missing.toList := by
      rw [← String.toList_append, ← form, encode, String.toList_ofList]
    have gone : missing.toList ≠ [] := fun none => proper (String.toList_eq_nil_iff.1 none)
    simp only [decode, (reads element).cut _ _ gone split]
  trailing element character rest visible := by
    have followed := (reads element).complete (character :: rest)
    simp only [decode, encode, String.toList_append, String.toList_ofList, followed,
      skipBlanks_cons visible]
    exact if_neg (List.cons_ne_nil _ _)

/-- Values, lists of values and lists of instructions have a JSON form that says where it ends. -/
theorem json_forms_delimited :
    SelfDelimiting writeValue readValue ∧
      SelfDelimiting (writeList writeValue) (readList readValue) ∧
      SelfDelimiting (writeList writeInstruction) (readList readInstruction) :=
  ⟨selfDelimiting_of_reads reads_value,
    selfDelimiting_of_reads (reads_list reads_value begins_writeValue),
    selfDelimiting_of_reads (reads_list reads_instruction begins_writeInstruction)⟩

/-- The list of the least word and `false` is read back from its text, not from a beginning that ends
inside the number, and not with another bracket behind it. -/
theorem json_forms_delimited_pair :
    let elements : List Value := [.integer Int32.minValue, .boolean false]
    decode (readList readValue)
        "[\x7b\"Integer\":-2147483648\x7d,\x7b\"Boolean\":false\x7d]" = .ok elements ∧
      decode (readList readValue) "[\x7b\"Integer\":-21" = .error .incomplete ∧
      decode (readList readValue) (encode (writeList writeValue) elements ++ "]") =
        .error .illFormed := by
  intro elements
  obtain ⟨-, lists, -⟩ := json_forms_delimited
  have written : encode (writeList writeValue) elements =
      "[\x7b\"Integer\":-2147483648\x7d,\x7b\"Boolean\":false\x7d]" := by decide
  refine ⟨?_, ?_, ?_⟩
  · rw [← written]
    exact lists.complete elements
  · exact lists.cut elements _ "47483648\x7d,\x7b\"Boolean\":false\x7d]" (by decide) written
  · exact lists.trailing elements ']' [] rfl

end Crosswire.JsonText
