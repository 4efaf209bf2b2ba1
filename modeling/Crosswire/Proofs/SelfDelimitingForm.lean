/-
Module: Crosswire.Proofs.SelfDelimitingForm
Purpose: The binary form says where it ends. Reading a form that was written gives the element back and
  leaves what follows; any shorter beginning of it is found to be too short; and whatever can be read at
  all begins with the one form of what was read. The three laws are carried together from numbers
  through variants to lists, by a rule for reading one thing after another.
Imports: Crosswire.Codec.Binary, Crosswire.Text.Unsigned
Main exports: Binary.SelfDelimiting, Binary.Decoder.andThen, Binary.SelfDelimiting.andThen,
  Binary.SelfDelimiting.many, Binary.SelfDelimiting.list, Binary.selfDelimiting_value,
  Binary.selfDelimiting_instruction, Binary.binary_forms_delimited
-/
import Crosswire.Codec.Binary
import Crosswire.Text.Unsigned

namespace Crosswire.Binary

/-- `decode` reads the forms that `encode` gives to the elements that fit, and nothing else. -/
structure SelfDelimiting {α : Type} (encode : α → List UInt8) (decode : Decoder α)
    (Fits : α → Prop) : Prop where
  /-- A form is read back, whatever follows it. -/
  complete : ∀ element rest, Fits element → decode (encode element ++ rest) = .ok (element, rest)
  /-- A form of which the end is missing is too short. -/
  cut : ∀ element beginning missing, Fits element → missing ≠ [] →
    encode element = beginning ++ missing → decode beginning = .error .endOfInput
  /-- Bytes that can be read begin with the form of what was read. -/
  canonical : ∀ bytes element rest, decode bytes = .ok (element, rest) →
    Fits element ∧ bytes = encode element ++ rest

/-- Where the end of two forms is missing, a part of the first is missing, or only a part of the
second. -/
theorem append_cut {α : Type} {first second beginning missing : List α}
    (forms : first ++ second = beginning ++ missing) :
    (∃ gone, gone ≠ [] ∧ first = beginning ++ gone) ∨
      ∃ part, beginning = first ++ part ∧ second = part ++ missing := by
  rcases List.append_eq_append_iff.1 forms with ⟨part, begun, ended⟩ | ⟨gone, begun, ended⟩
  · exact .inr ⟨part, begun, ended⟩
  · by_cases whole : gone = []
    · subst whole
      refine .inr ⟨[], ?_, ?_⟩
      · rw [begun, List.append_nil, List.append_nil]
      · rw [ended, List.nil_append, List.nil_append]
    · exact .inl ⟨gone, whole, begun⟩

/-! ### One after another -/

/-- Read something, and then what it asks for. -/
def Decoder.andThen {α β : Type} (first : Decoder α) (second : α → Decoder β) : Decoder β :=
  fun bytes =>
    match first bytes with
    | .ok (head, rest) => second head rest
    | .error error => .error error

namespace SelfDelimiting

variable {α β : Type} {encode : α → List UInt8} {decode : Decoder α} {Fits : α → Prop}

/-- Nothing is read for the one element that fits. -/
theorem done {Fits : β → Prop} {only : β} (fits : ∀ element, Fits element ↔ element = only) :
    SelfDelimiting (fun _ => []) (fun bytes => .ok (only, bytes)) Fits where
  complete element rest fitting := by
    obtain rfl := (fits element).1 fitting
    rfl
  cut element beginning missing _ proper form :=
    absurd (List.append_eq_nil_iff.1 form.symm).2 proper
  canonical bytes element rest decoded := by
    cases decoded
    exact ⟨(fits _).2 rfl, rfl⟩

/-- If nothing fits, everything can be refused. -/
theorem refused {Fits : β → Prop} {encode : β → List UInt8} (error : DecodeError)
    (none : ∀ element, ¬ Fits element) : SelfDelimiting encode (fun _ => .error error) Fits where
  complete element _ fitting := absurd fitting (none element)
  cut element _ _ fitting := absurd fitting (none element)
  canonical _ _ _ decoded := by cases decoded

/-- Only the forms of the elements that fit matter. -/
theorem congr {Others : α → Prop} {other : α → List UInt8} (code : SelfDelimiting encode decode Fits)
    (iff : ∀ element, Others element ↔ Fits element)
    (same : ∀ element, Fits element → encode element = other element) :
    SelfDelimiting other decode Others where
  complete element rest others := by
    have fits := (iff element).1 others
    rw [← same element fits]
    exact code.complete element rest fits
  cut element beginning missing others proper form := by
    have fits := (iff element).1 others
    exact code.cut element beginning missing fits proper ((same element fits).trans form)
  canonical bytes element rest decoded := by
    obtain ⟨fits, split⟩ := code.canonical bytes element rest decoded
    exact ⟨(iff element).2 fits, same element fits ▸ split⟩

/-- A form that begins with the form of a key, and goes on as the key asks. -/
theorem andThen {Keyed : β → Prop} {key : β → α} {tail : β → List UInt8} {second : α → Decoder β}
    (code : SelfDelimiting encode decode Fits)
    (keyFits : ∀ element, Keyed element → Fits (key element))
    (onward : ∀ head, Fits head →
      SelfDelimiting tail (second head) fun element => Keyed element ∧ key element = head) :
    SelfDelimiting (fun element => encode (key element) ++ tail element) (decode.andThen second)
      Keyed where
  complete element rest keyed := by
    have fits := keyFits element keyed
    have head := code.complete (key element) (tail element ++ rest) fits
    rw [← List.append_assoc] at head
    simp only [Decoder.andThen, head]
    exact (onward _ fits).complete element rest ⟨keyed, rfl⟩
  cut element beginning missing keyed proper form := by
    have fits := keyFits element keyed
    -- What is missing begins inside the form of the key or behind it.
    rcases append_cut form with ⟨gone, some, short⟩ | ⟨part, rfl, short⟩
    · have head := code.cut (key element) beginning gone fits some short
      simp only [Decoder.andThen, head]
    · have head := code.complete (key element) part fits
      simp only [Decoder.andThen, head]
      exact (onward _ fits).cut element part missing ⟨keyed, rfl⟩ proper short
  canonical bytes element rest decoded := by
    unfold Decoder.andThen at decoded
    split at decoded
    · next head between read =>
      obtain ⟨fits, rfl⟩ := code.canonical bytes head between read
      obtain ⟨⟨keyed, rfl⟩, rfl⟩ := (onward head fits).canonical between element rest decoded
      exact ⟨keyed, (List.append_assoc _ _ _).symm⟩
    · cases decoded

/-! ### Lists -/

/-- A given number of forms, one after the other. -/
theorem many (code : SelfDelimiting encode decode Fits) (count : Nat) :
    SelfDelimiting (List.flatMap encode) (decodeMany decode count) fun elements =>
      elements.length = count ∧ ∀ element ∈ elements, Fits element := by
  induction count with
  | zero =>
    constructor
    · rintro elements rest ⟨none, -⟩
      obtain rfl := List.length_eq_zero_iff.1 none
      rfl
    · rintro elements beginning missing ⟨none, -⟩ proper form
      obtain rfl := List.length_eq_zero_iff.1 none
      exact absurd (List.append_eq_nil_iff.1 form.symm).2 proper
    · intro bytes elements rest decoded
      cases decoded
      exact ⟨⟨rfl, by simp⟩, rfl⟩
  | succ count ih =>
    constructor
    · rintro elements rest ⟨counted, fits⟩
      obtain ⟨first, others, rfl⟩ := List.exists_cons_of_length_eq_add_one counted
      obtain ⟨firstFits, othersFit⟩ := List.forall_mem_cons.1 fits
      have head := code.complete first (others.flatMap encode ++ rest) firstFits
      have behind := ih.complete others rest ⟨Nat.succ.inj counted, othersFit⟩
      simp only [decodeMany, List.flatMap_cons, List.append_assoc, head, behind]
    · rintro elements beginning missing ⟨counted, fits⟩ proper form
      obtain ⟨first, others, rfl⟩ := List.exists_cons_of_length_eq_add_one counted
      obtain ⟨firstFits, othersFit⟩ := List.forall_mem_cons.1 fits
      rw [List.flatMap_cons] at form
      rcases append_cut form with ⟨gone, some, short⟩ | ⟨part, rfl, short⟩
      · have head := code.cut first beginning gone firstFits some short
        simp only [decodeMany, head]
      · have head := code.complete first part firstFits
        have behind := ih.cut others part missing ⟨Nat.succ.inj counted, othersFit⟩ proper short
        simp only [decodeMany, head, behind]
    · intro bytes elements rest decoded
      unfold decodeMany at decoded
      split at decoded
      · next first between read =>
        split at decoded
        · next others behind readOthers =>
          cases decoded
          obtain ⟨firstFits, rfl⟩ := code.canonical bytes first between read
          obtain ⟨⟨counted, othersFit⟩, rfl⟩ := ih.canonical between others rest readOthers
          refine ⟨⟨congrArg (· + 1) counted, List.forall_mem_cons.2 ⟨firstFits, othersFit⟩⟩, ?_⟩
          rw [List.flatMap_cons, List.append_assoc]
        · cases decoded
      · cases decoded

end SelfDelimiting

/-! ### Numbers -/

theorem decodeNat_of_short {width : Nat} {bytes : List UInt8} (short : bytes.length < width) :
    decodeNat width bytes = .error .endOfInput := by
  induction width generalizing bytes with
  | zero => cases short
  | succ width ih =>
    cases bytes with
    | nil => rfl
    | cons byte bytes => simp only [decodeNat, ih (Nat.lt_of_succ_lt_succ short)]

theorem eq_append_of_decodeNat {width number : Nat} {bytes rest : List UInt8}
    (decoded : decodeNat width bytes = .ok (number, rest)) :
    number < Nat.pow 256 width ∧ bytes = encodeNat width number ++ rest := by
  induction width generalizing bytes number with
  | zero =>
    cases decoded
    exact ⟨Nat.one_pos, rfl⟩
  | succ width ih =>
    cases bytes with
    | nil => cases decoded
    | cons byte bytes =>
      unfold decodeNat at decoded
      split at decoded
      · next high behind read =>
        cases decoded
        obtain ⟨bound, rfl⟩ := ih read
        have low := byte.toNat_lt
        have size : Nat.pow 256 (width + 1) = Nat.pow 256 width * 256 := rfl
        have digit : UInt8.ofNat (byte.toNat + 256 * high) = byte := by
          apply UInt8.toNat_inj.1
          rw [UInt8.toNat_ofNat']
          omega
        have others : (byte.toNat + 256 * high) / 256 = high := by omega
        refine ⟨by omega, ?_⟩
        rw [encodeNat, digit, others]
        rfl
      · cases decoded

/-- A number of fixed width. -/
theorem selfDelimiting_nat (width : Nat) :
    SelfDelimiting (encodeNat width) (decodeNat width) (· < Nat.pow 256 width) where
  complete number rest fits := by
    rw [decodeNat_encodeNat_append, Nat.mod_eq_of_lt fits]
  cut number beginning missing _ proper form := by
    have length := congrArg List.length form
    have some := List.length_pos_iff.2 proper
    rw [length_encodeNat, List.length_append] at length
    exact decodeNat_of_short (by omega)
  canonical bytes number rest decoded := eq_append_of_decodeNat decoded

theorem decodeList_eq {α : Type} (decode : Decoder α) :
    decodeList decode = (decodeNat 8).andThen (decodeMany decode) := by
  funext bytes
  unfold decodeList Decoder.andThen
  cases decodeNat 8 bytes <;> rfl

/-- A list whose length fits its eight bytes. -/
theorem SelfDelimiting.list {α : Type} {encode : α → List UInt8} {decode : Decoder α}
    (code : SelfDelimiting encode decode fun _ => True) :
    SelfDelimiting (encodeList encode) (decodeList decode) (·.length < unsignedBound) := by
  have onward (count : Nat) (fits : count < unsignedBound) :
      SelfDelimiting (List.flatMap encode) (decodeMany decode count) fun elements =>
        elements.length < unsignedBound ∧ elements.length = count := by
    refine (code.many count).congr ?_ fun _ _ => rfl
    intro elements
    constructor
    · rintro ⟨-, counted⟩
      exact ⟨counted, fun _ _ => trivial⟩
    · rintro ⟨counted, -⟩
      exact ⟨counted ▸ fits, counted⟩
  rw [decodeList_eq]
  exact (selfDelimiting_nat 8).andThen (fun _ fits => fits) onward

/-! ### Values -/

/-- The index of the kind of a value. -/
def kindIndex : Value → Nat
  | .integer _ => 0
  | .boolean _ => 1

/-- The binary form of a truth value. -/
def encodeTruth (truth : Bool) : List UInt8 :=
  [if truth then 1 else 0]

/-- The form of a value behind the index of its kind. -/
def encodeContent : Value → List UInt8
  | .integer word => encodeNat 4 word.toUInt32.toNat
  | .boolean truth => encodeTruth truth

/-- Read the content of a value of a kind. -/
def decodeContent : Nat → Decoder Value
  | 0 => (decodeNat 4).andThen fun word bytes => .ok (.integer (UInt32.ofNat word).toInt32, bytes)
  | _ + 1 => decodeTruth.andThen fun truth bytes => .ok (.boolean truth, bytes)

theorem encodeValue_eq (value : Value) :
    encodeValue value = encodeNat 4 (kindIndex value) ++ encodeContent value := by
  cases value <;> rfl

theorem decodeValue_eq : decodeValue = (decodeIndex 2).andThen decodeContent := by
  funext bytes
  unfold decodeValue Decoder.andThen
  rcases decodeIndex 2 bytes with error | ⟨_ | index, rest⟩
  · rfl
  · simp only [decodeContent, Decoder.andThen]
    cases decodeNat 4 rest <;> rfl
  · simp only [decodeContent, Decoder.andThen]
    cases decodeTruth rest <;> rfl

theorem selfDelimiting_index : SelfDelimiting (encodeNat 4) (decodeIndex 2) (· < 2) where
  complete index rest fits := by
    have read := (selfDelimiting_nat 4).complete index rest (Nat.lt_trans fits (by decide))
    simp only [decodeIndex, read, fits, if_true]
  cut index beginning missing fits proper form := by
    have read := (selfDelimiting_nat 4).cut index beginning missing
      (Nat.lt_trans fits (by decide)) proper form
    simp only [decodeIndex, read]
  canonical bytes index rest decoded := by
    unfold decodeIndex at decoded
    split at decoded
    · next read =>
      split at decoded
      · next fits =>
        cases decoded
        exact ⟨fits, (eq_append_of_decodeNat read).2⟩
      · cases decoded
    · cases decoded

theorem selfDelimiting_truth : SelfDelimiting encodeTruth decodeTruth fun _ => True where
  complete truth rest _ := by cases truth <;> rfl
  cut truth beginning missing _ proper form := by
    cases beginning with
    | nil => rfl
    | cons byte others =>
      obtain ⟨-, nothing⟩ := List.cons.inj form
      exact absurd (List.append_eq_nil_iff.1 nothing.symm).2 proper
  canonical bytes truth rest decoded := by
    refine ⟨trivial, ?_⟩
    unfold decodeTruth at decoded
    split at decoded
    · cases decoded
    · split at decoded
      · next zero =>
        cases decoded
        rw [zero]
        rfl
      · split at decoded
        · next one =>
          cases decoded
          rw [one]
          rfl
        · cases decoded

/-- The number in the form of an integer. -/
def wordNumber : Value → Nat
  | .integer word => word.toUInt32.toNat
  | .boolean _ => 0

/-- The truth in the form of a truth value. -/
def truthOf : Value → Bool
  | .integer _ => false
  | .boolean truth => truth

theorem integer_iff {number : Nat} (fits : number < Nat.pow 256 4) (value : Value) :
    kindIndex value = 0 ∧ wordNumber value = number ↔
      value = .integer (UInt32.ofNat number).toInt32 := by
  constructor
  · rintro ⟨kind, rfl⟩
    cases value with
    | integer word => simp only [wordNumber, UInt32.ofNat_toNat, Int32.toInt32_toUInt32]
    | boolean truth => cases kind
  · rintro rfl
    refine ⟨rfl, ?_⟩
    rw [wordNumber, UInt32.toUInt32_toInt32]
    exact UInt32.toNat_ofNat_of_lt fits

theorem boolean_iff (truth : Bool) (value : Value) :
    kindIndex value = 1 ∧ truthOf value = truth ↔ value = .boolean truth := by
  cases value with
  | integer word => simp [kindIndex]
  | boolean other => simp [kindIndex, truthOf]

theorem wordNumber_lt (value : Value) : wordNumber value < Nat.pow 256 4 := by
  cases value with
  | integer word => exact word.toUInt32.toNat_lt
  | boolean truth => exact Nat.pow_pos (by decide)

theorem selfDelimiting_content {index : Nat} (known : index < 2) :
    SelfDelimiting encodeContent (decodeContent index) fun value => kindIndex value = index := by
  match index, known with
  | 0, _ =>
    have code : SelfDelimiting (fun value => encodeNat 4 (wordNumber value) ++ []) (decodeContent 0)
        fun value => kindIndex value = 0 :=
      (selfDelimiting_nat 4).andThen (fun value _ => wordNumber_lt value)
        fun number fits => .done (integer_iff fits)
    refine code.congr (fun _ => Iff.rfl) ?_
    intro value kind
    cases value with
    | integer word => exact List.append_nil _
    | boolean truth => cases kind
  | 1, _ =>
    have code : SelfDelimiting (fun value => encodeTruth (truthOf value) ++ []) (decodeContent 1)
        fun value => kindIndex value = 1 :=
      selfDelimiting_truth.andThen (fun _ _ => trivial) fun truth _ => .done (boolean_iff truth)
    refine code.congr (fun _ => Iff.rfl) ?_
    intro value kind
    cases value with
    | integer word => cases kind
    | boolean truth => rfl

theorem kindIndex_lt (value : Value) : kindIndex value < 2 := by
  cases value with
  | integer word => exact Nat.two_pos
  | boolean truth => exact Nat.one_lt_two

/-- Values of both kinds. -/
theorem selfDelimiting_value : SelfDelimiting encodeValue decodeValue fun _ => True := by
  rw [decodeValue_eq, funext encodeValue_eq]
  refine selfDelimiting_index.andThen (fun value _ => kindIndex_lt value) ?_
  intro index known
  refine (selfDelimiting_content known).congr ?_ fun _ _ => rfl
  exact fun value => and_iff_right trivial

/-! ### Instructions -/

/-- The instruction of an index, for which no more is read. -/
def decodeNamed (index : Nat) : Decoder Instruction := fun bytes =>
  match instructionsByIndex[index]? with
  | some instruction => .ok (instruction, bytes)
  | none => .error (.unknownVariant index instructionsByIndex.length)

theorem decodeInstruction_eq : decodeInstruction = (decodeNat 4).andThen decodeNamed := by
  funext bytes
  unfold decodeInstruction Decoder.andThen
  cases decodeNat 4 bytes <;> rfl

theorem getElem?_idxOf_instructionsByIndex (instruction : Instruction) :
    instructionsByIndex[instructionsByIndex.idxOf instruction]? = some instruction := by
  cases instruction <;> rfl

theorem idxOf_of_getElem?_instructionsByIndex {index : Nat} {instruction : Instruction}
    (listed : instructionsByIndex[index]? = some instruction) :
    instructionsByIndex.idxOf instruction = index := by
  obtain ⟨inside, rfl⟩ := List.getElem?_eq_some_iff.1 listed
  exact List.Nodup.idxOf_getElem (by decide) index inside

theorem selfDelimiting_named (index : Nat) :
    SelfDelimiting (fun _ => []) (decodeNamed index) fun instruction =>
      True ∧ instructionsByIndex.idxOf instruction = index := by
  cases listed : instructionsByIndex[index]? with
  | none =>
    have reads : decodeNamed index =
        fun _ => .error (.unknownVariant index instructionsByIndex.length) := by
      funext bytes
      simp only [decodeNamed, listed]
    rw [reads]
    apply SelfDelimiting.refused
    rintro instruction ⟨-, rfl⟩
    rw [getElem?_idxOf_instructionsByIndex] at listed
    cases listed
  | some instruction =>
    have reads : decodeNamed index = fun bytes => .ok (instruction, bytes) := by
      funext bytes
      simp only [decodeNamed, listed]
    rw [reads]
    apply SelfDelimiting.done
    intro other
    constructor
    · rintro ⟨-, rfl⟩
      rw [getElem?_idxOf_instructionsByIndex] at listed
      exact Option.some.inj listed
    · rintro rfl
      exact ⟨trivial, idxOf_of_getElem?_instructionsByIndex listed⟩

theorem selfDelimiting_instruction :
    SelfDelimiting encodeInstruction decodeInstruction fun _ => True := by
  have indexFits (instruction : Instruction) :
      instructionsByIndex.idxOf instruction < Nat.pow 256 4 := by
    cases instruction <;> decide
  -- The index is all there is of the form: behind it nothing is written and nothing read.
  have code : SelfDelimiting (fun instruction => encodeInstruction instruction ++ [])
      decodeInstruction fun _ => True := by
    rw [decodeInstruction_eq]
    exact (selfDelimiting_nat 4).andThen (fun instruction _ => indexFits instruction)
      fun index _ => selfDelimiting_named index
  exact code.congr (fun _ => Iff.rfl) fun instruction _ => List.append_nil _

/-! ### All forms -/

/-- Values, lists of values and lists of instructions have a form that says where it ends. Lists are as
long as an unsigned 64-bit number can say. -/
theorem binary_forms_delimited :
    SelfDelimiting encodeValue decodeValue (fun _ => True) ∧
      SelfDelimiting (encodeList encodeValue) (decodeList decodeValue)
        (·.length < unsignedBound) ∧
      SelfDelimiting (encodeList encodeInstruction) (decodeList decodeInstruction)
        (·.length < unsignedBound) :=
  ⟨selfDelimiting_value, selfDelimiting_value.list, selfDelimiting_instruction.list⟩

/-- The list of -1 and `true` is read back from its 21 bytes in front of another byte, and not from the
first 20. -/
theorem binary_forms_delimited_pair :
    let elements : List Value := [.integer (-1), .boolean true]
    decodeList decodeValue (encodeList encodeValue elements ++ [7]) = .ok (elements, [7]) ∧
      decodeList decodeValue ((encodeList encodeValue elements).take 20) = .error .endOfInput := by
  intro elements
  obtain ⟨-, lists, -⟩ := binary_forms_delimited
  have fits : elements.length < unsignedBound := by decide
  have split : encodeList encodeValue elements = (encodeList encodeValue elements).take 20 ++ [1] := by
    decide
  exact ⟨lists.complete elements [7] fits, lists.cut elements _ [1] fits (List.cons_ne_nil 1 []) split⟩

end Crosswire.Binary
