/-
Module: Crosswire.Proofs.TokenSpans
Purpose: Where tokens stand. The instruction characters are one byte each, and no byte of a longer
  character looks like one, so the tokens of a text can be read off its bytes one by one: every byte
  that is the code of an instruction character gives a token, and no other byte does. Reading by
  longest matches of a pattern for comments and a pattern for instructions gives the same tokens and
  never meets a character that neither pattern takes. Reading a text in two parts is reading it at once.
Imports: Crosswire.Token, Crosswire.Text.Slice
Main exports: tokensFrom_append, tokensFrom_shifted, mem_tokensFrom_iff, Token.ofByte?, utf8Bytes,
  tokensFrom_eq_filterMap, Scans, scans_iff, tokens_exact
-/
import Crosswire.Token
import Crosswire.Text.Slice

namespace Crosswire

/-! ### Instruction characters -/

/-- Instruction characters are ASCII. -/
theorem toNat_lt_of_ofChar? {character : Char} {instruction : Instruction}
    (reads : Instruction.ofChar? character = some instruction) : character.toNat < 128 := by
  rw [← Instruction.toChar_of_ofChar? reads]
  cases instruction <;> decide

theorem utf8Size_of_ofChar? {character : Char} {instruction : Instruction}
    (reads : Instruction.ofChar? character = some instruction) : character.utf8Size = 1 := by
  rw [← Instruction.toChar_of_ofChar? reads]
  cases instruction <;> decide

/-! ### Reading in parts -/

theorem tokensFrom_cons_some {character : Char} {instruction : Instruction}
    (reads : Instruction.ofChar? character = some instruction) (offset : Nat) (rest : List Char) :
    tokensFrom offset (character :: rest) =
      ⟨instruction, ⟨offset, offset + 1⟩⟩ :: tokensFrom (offset + 1) rest := by
  simp only [tokensFrom, reads, utf8Size_of_ofChar? reads]

theorem tokensFrom_cons_none {character : Char} (skips : Instruction.ofChar? character = none)
    (offset : Nat) (rest : List Char) :
    tokensFrom offset (character :: rest) = tokensFrom (offset + character.utf8Size) rest := by
  simp only [tokensFrom, skips]

theorem tokensFrom_append (offset : Nat) (first second : List Char) :
    tokensFrom offset (first ++ second) =
      tokensFrom offset first ++ tokensFrom (offset + byteCount first) second := by
  induction first generalizing offset with
  | nil => rfl
  | cons character rest ih =>
    rw [List.cons_append, byteCount, ← Nat.add_assoc]
    cases reads : Instruction.ofChar? character with
    | some instruction =>
      rw [tokensFrom_cons_some reads, tokensFrom_cons_some reads, utf8Size_of_ofChar? reads, ih,
        List.cons_append]
    | none => rw [tokensFrom_cons_none reads, tokensFrom_cons_none reads, ih]

/-- The token, so many bytes further on. -/
def Token.shifted (bytes : Nat) (token : Token) : Token :=
  ⟨token.instruction, ⟨bytes + token.span.start, bytes + token.span.stop⟩⟩

theorem tokensFrom_shifted (bytes offset : Nat) (characters : List Char) :
    tokensFrom (bytes + offset) characters = (tokensFrom offset characters).map (Token.shifted bytes) := by
  induction characters generalizing offset with
  | nil => rfl
  | cons character rest ih =>
    cases reads : Instruction.ofChar? character with
    | some instruction =>
      rw [tokensFrom_cons_some reads, tokensFrom_cons_some reads, List.map_cons, Nat.add_assoc, ih]
      rfl
    | none => rw [tokensFrom_cons_none reads, tokensFrom_cons_none reads, Nat.add_assoc, ih]

/-- A token stands where its character does, and every instruction character has one. -/
theorem mem_tokensFrom_iff {offset : Nat} {characters : List Char} {token : Token} :
    token ∈ tokensFrom offset characters ↔
      ∃ before after, characters = before ++ token.instruction.toChar :: after ∧
        token.span = ⟨offset + byteCount before, offset + byteCount before + 1⟩ := by
  constructor
  · intro member
    induction characters generalizing offset with
    | nil => cases member
    | cons character rest ih =>
      have further {bytes : Nat} (width : character.utf8Size = bytes)
          (behind : token ∈ tokensFrom (offset + bytes) rest) :
          ∃ before after, character :: rest = before ++ token.instruction.toChar :: after ∧
            token.span = ⟨offset + byteCount before, offset + byteCount before + 1⟩ := by
        obtain ⟨before, after, rfl, span⟩ := ih behind
        refine ⟨character :: before, after, rfl, ?_⟩
        rw [span, byteCount, width, Nat.add_assoc offset bytes]
      cases reads : Instruction.ofChar? character with
      | none =>
        rw [tokensFrom_cons_none reads] at member
        exact further rfl member
      | some instruction =>
        rw [tokensFrom_cons_some reads] at member
        rcases List.mem_cons.1 member with rfl | behind
        · exact ⟨[], rest, by rw [Instruction.toChar_of_ofChar? reads]; rfl, rfl⟩
        · exact further (utf8Size_of_ofChar? reads) behind
  · rintro ⟨before, after, rfl, span⟩
    rw [tokensFrom_append, tokensFrom_cons_some (Instruction.ofChar?_toChar _), List.mem_append,
      List.mem_cons, ← span]
    exact .inr (.inl rfl)

/-- Tokens lie within the bytes of the characters read. -/
theorem span_of_mem_tokensFrom {offset : Nat} {characters : List Char} {token : Token}
    (member : token ∈ tokensFrom offset characters) :
    offset ≤ token.span.start ∧ token.span.stop ≤ offset + byteCount characters := by
  obtain ⟨before, after, rfl, span⟩ := mem_tokensFrom_iff.1 member
  have width := token.instruction.toChar.utf8Size_pos
  rw [span, byteCount_append, byteCount]
  constructor
  · exact Nat.le_add_right _ _
  · show offset + byteCount before + 1 ≤ _
    omega

/-- Every token ends before the next one starts. -/
theorem pairwise_tokensFrom (offset : Nat) (characters : List Char) :
    (tokensFrom offset characters).Pairwise fun first second => first.span.stop ≤ second.span.start := by
  induction characters generalizing offset with
  | nil => exact .nil
  | cons character rest ih =>
    cases reads : Instruction.ofChar? character with
    | none =>
      rw [tokensFrom_cons_none reads]
      exact ih _
    | some instruction =>
      rw [tokensFrom_cons_some reads]
      refine .cons ?_ (ih _)
      intro token behind
      exact (span_of_mem_tokensFrom behind).1

/-! ### Reading bytes -/

/-- The bytes of the UTF-8 form of a text. -/
def utf8Bytes (source : String) : List UInt8 :=
  source.toUTF8.data.toList

theorem utf8Bytes_eq_flatMap (source : String) :
    utf8Bytes source = source.toList.flatMap String.utf8EncodeChar := by
  rw [utf8Bytes, String.toUTF8_eq_toByteArray, ← String.utf8Encode_toList]
  exact List.toList_data_toByteArray

theorem byteCount_toList (source : String) : byteCount source.toList = source.utf8ByteSize := by
  have counted (characters : List Char) :
      (characters.flatMap String.utf8EncodeChar).length = byteCount characters := by
    induction characters with
    | nil => rfl
    | cons character rest ih =>
      rw [List.flatMap_cons, List.length_append, String.length_utf8EncodeChar, ih, byteCount]
  rw [← counted, ← utf8Bytes_eq_flatMap, ← String.size_toByteArray]
  rfl

/-- The token that a byte gives by itself. -/
def Token.ofByte? (offset : Nat) (byte : UInt8) : Option Token :=
  (Instruction.ofChar? (Char.ofNat byte.toNat)).map (⟨·, ⟨offset, offset + 1⟩⟩)

/-- An ASCII character is encoded by its code. -/
theorem utf8EncodeChar_of_ascii {character : Char} (ascii : character.toNat < 128) :
    String.utf8EncodeChar character = [UInt8.ofNat character.toNat] := by
  have small : character.val.toNat ≤ 127 := Nat.le_of_lt_succ ascii
  simp only [String.utf8EncodeChar, small, if_true]
  rfl

/-- No byte of any other character is the code of an ASCII character. -/
theorem le_toNat_of_mem_utf8EncodeChar {character : Char} (long : 128 ≤ character.toNat)
    {byte : UInt8} (member : byte ∈ String.utf8EncodeChar character) : 128 ≤ byte.toNat := by
  have large : ¬ character.val.toNat ≤ 127 := Nat.not_le.2 long
  -- Two, three or four bytes, each of them a remainder with the top bit added.
  simp only [String.utf8EncodeChar, large, if_false] at member
  split at member
  · simp only [List.mem_cons, List.not_mem_nil, or_false] at member
    rcases member with rfl | rfl <;> rw [UInt8.toNat_ofNat'] <;> omega
  · split at member <;> simp only [List.mem_cons, List.not_mem_nil, or_false] at member
    · rcases member with rfl | rfl | rfl <;> rw [UInt8.toNat_ofNat'] <;> omega
    · rcases member with rfl | rfl | rfl | rfl <;> rw [UInt8.toNat_ofNat'] <;> omega

/-- Every byte is the code of a character. -/
theorem toNat_ofNat_toNat (byte : UInt8) : (Char.ofNat byte.toNat).toNat = byte.toNat := by
  have valid : byte.toNat.isValidChar := .inl (Nat.lt_trans byte.toNat_lt (by decide))
  rw [Char.ofNat, dif_pos valid]
  rfl

theorem Token.ofByte?_of_le {byte : UInt8} (high : 128 ≤ byte.toNat) (offset : Nat) :
    Token.ofByte? offset byte = none := by
  cases reads : Instruction.ofChar? (Char.ofNat byte.toNat) with
  | none => rw [ofByte?, reads, Option.map_none]
  | some instruction =>
    have low := toNat_lt_of_ofChar? reads
    rw [toNat_ofNat_toNat] at low
    exact absurd low (Nat.not_lt.2 high)

/-- The bytes of one character give the token of that character. -/
theorem tokensFrom_singleton (offset : Nat) (character : Char) :
    tokensFrom offset [character] = ((String.utf8EncodeChar character).zipIdx offset).filterMap
      fun entry => Token.ofByte? entry.2 entry.1 := by
  rcases Nat.lt_or_ge character.toNat 128 with ascii | long
  · have code : (UInt8.ofNat character.toNat).toNat = character.toNat := by
      rw [UInt8.toNat_ofNat']
      exact Nat.mod_eq_of_lt (Nat.lt_trans ascii (by decide))
    rw [utf8EncodeChar_of_ascii ascii]
    simp only [List.zipIdx_singleton, List.filterMap_cons, List.filterMap_nil, Token.ofByte?, code,
      Char.ofNat_toNat]
    cases reads : Instruction.ofChar? character with
    | none => rw [tokensFrom_cons_none reads]; rfl
    | some instruction => rw [tokensFrom_cons_some reads]; rfl
  · have skips : Instruction.ofChar? character = none := by
      cases reads : Instruction.ofChar? character with
      | none => rfl
      | some instruction => exact absurd (toNat_lt_of_ofChar? reads) (Nat.not_lt.2 long)
    rw [tokensFrom_cons_none skips]
    symm
    apply List.filterMap_eq_nil_iff.2
    rintro ⟨byte, position⟩ member
    exact Token.ofByte?_of_le (le_toNat_of_mem_utf8EncodeChar long (List.fst_mem_of_mem_zipIdx member)) _

/-- The tokens of a text are those of its bytes. -/
theorem tokensFrom_eq_filterMap (offset : Nat) (characters : List Char) :
    tokensFrom offset characters =
      ((characters.flatMap String.utf8EncodeChar).zipIdx offset).filterMap
        fun entry => Token.ofByte? entry.2 entry.1 := by
  induction characters generalizing offset with
  | nil => rfl
  | cons character rest ih =>
    rw [List.flatMap_cons, List.zipIdx_append, List.filterMap_append, String.length_utf8EncodeChar,
      ← ih, ← tokensFrom_singleton]
    exact tokensFrom_append offset [character] rest

/-- A byte gives a token exactly if it is the code of the token's character. -/
theorem Token.ofByte?_eq_some_iff {offset : Nat} {byte : UInt8} {token : Token} :
    Token.ofByte? offset byte = some token ↔
      token.span = ⟨offset, offset + 1⟩ ∧
        ∃ character, Instruction.ofChar? character = some token.instruction ∧
          byte.toNat = character.toNat := by
  constructor
  · intro given
    obtain ⟨instruction, reads, rfl⟩ := Option.map_eq_some_iff.1 given
    exact ⟨rfl, Char.ofNat byte.toNat, reads, (toNat_ofNat_toNat byte).symm⟩
  · rintro ⟨span, character, reads, code⟩
    rw [ofByte?, code, Char.ofNat_toNat, reads, Option.map_some, ← span]

/-! ### Reading by longest matches -/

/-- The characters that the pattern of a comment leaves out. -/
def commentExcluded : List Char :=
  ['+', '-', '!', '>', '<', '&', '=', '_', '.', '0', '*', '2', '1', 't', 'f', '(', ')']

/-- The characters that the pattern of an instruction lists. -/
def operators : List Char :=
  ['+', '-', '!', '>', '<', '&', '=', '_', '.', '0', '*', '2', '1', 't', 'f', '(', ')']

/-- Reading characters from an offset on by longest matches: a comment is a run of characters that are
not left out and is dropped, an instruction is one listed character. An entry without an instruction is
an error: a listed character that spells none, or a character that no pattern takes. -/
inductive Scans : Nat → List Char → List (Option Instruction × Span) → Prop where
  | nothing (offset : Nat) : Scans offset [] []
  | comment {offset : Nat} {run rest : List Char} {entries : List (Option Instruction × Span)}
      (nonempty : run ≠ []) (taken : ∀ character ∈ run, character ∉ commentExcluded)
      (longest : ∀ character ∈ rest.head?, character ∈ commentExcluded)
      (onward : Scans (offset + byteCount run) rest entries) : Scans offset (run ++ rest) entries
  | operator {offset : Nat} {character : Char} {rest : List Char}
      {entries : List (Option Instruction × Span)}
      (excluded : character ∈ commentExcluded) (listed : character ∈ operators)
      (onward : Scans (offset + character.utf8Size) rest entries) :
      Scans offset (character :: rest)
        ((Instruction.ofChar? character, ⟨offset, offset + character.utf8Size⟩) :: entries)
  | unknown {offset : Nat} {character : Char} {rest : List Char}
      {entries : List (Option Instruction × Span)}
      (excluded : character ∈ commentExcluded) (unlisted : character ∉ operators)
      (onward : Scans (offset + character.utf8Size) rest entries) :
      Scans offset (character :: rest) ((none, ⟨offset, offset + character.utf8Size⟩) :: entries)

theorem mem_commentExcluded_iff {character : Char} :
    character ∈ commentExcluded ↔ (Instruction.ofChar? character).isSome := by
  constructor
  · have all : commentExcluded.all (fun excluded => (Instruction.ofChar? excluded).isSome) := rfl
    exact List.all_eq_true.1 all character
  · intro reads
    obtain ⟨instruction, reads⟩ := Option.isSome_iff_exists.1 reads
    rw [← Instruction.toChar_of_ofChar? reads]
    cases instruction <;> decide

/-- The two patterns share the characters between them. -/
theorem mem_operators_iff {character : Char} :
    character ∈ operators ↔ character ∈ commentExcluded := by
  simp only [operators, commentExcluded]

/-- The entry of a token among those of a scan. -/
def Token.entry (token : Token) : Option Instruction × Span :=
  (some token.instruction, token.span)

theorem tokensFrom_comment {run : List Char}
    (taken : ∀ character ∈ run, character ∉ commentExcluded) (offset : Nat) :
    tokensFrom offset run = [] := by
  induction run generalizing offset with
  | nil => rfl
  | cons character rest ih =>
    have skips : Instruction.ofChar? character = none := by
      have outside := taken character List.mem_cons_self
      rwa [mem_commentExcluded_iff, Bool.not_eq_true, Option.isSome_eq_false_iff,
        Option.isNone_iff_eq_none] at outside
    rw [tokensFrom_cons_none skips]
    exact ih (fun other member => taken other (List.mem_cons_of_mem _ member)) _

theorem eq_of_scans {offset : Nat} {characters : List Char}
    {entries : List (Option Instruction × Span)} (scans : Scans offset characters entries) :
    entries = (tokensFrom offset characters).map Token.entry := by
  induction scans with
  | nothing offset => rfl
  | comment nonempty taken longest onward ih =>
    rw [tokensFrom_append, tokensFrom_comment taken, List.nil_append]
    exact ih
  | @operator offset character rest entries excluded listed onward ih =>
    obtain ⟨instruction, reads⟩ := Option.isSome_iff_exists.1 (mem_commentExcluded_iff.1 excluded)
    rw [ih, reads, tokensFrom_cons_some reads, utf8Size_of_ofChar? reads]
    rfl
  | unknown excluded unlisted onward ih => exact absurd (mem_operators_iff.2 excluded) unlisted

/-- A comment character in front of a scan belongs to the comment that starts there, or is one. -/
theorem Scans.precede {offset : Nat} {character : Char} {rest : List Char}
    {entries : List (Option Instruction × Span)} (taken : character ∉ commentExcluded)
    (scans : Scans (offset + character.utf8Size) rest entries) :
    Scans offset (character :: rest) entries := by
  have alone (longest : ∀ other ∈ rest.head?, other ∈ commentExcluded) :
      Scans offset (character :: rest) entries := by
    apply @Scans.comment offset [character] rest entries
    · exact List.cons_ne_nil _ _
    · intro other member
      rw [List.mem_singleton.1 member]
      exact taken
    · exact longest
    · exact scans
  cases scans with
  | nothing => exact alone (by simp)
  | operator excluded listed onward => exact alone (by simpa using excluded)
  | unknown excluded unlisted onward => exact alone (by simpa using excluded)
  | @comment _ run rest _ nonempty others longest onward =>
    apply @Scans.comment offset (character :: run) rest entries
    · exact List.cons_ne_nil _ _
    · exact List.forall_mem_cons.2 ⟨taken, others⟩
    · exact longest
    · rw [byteCount, ← Nat.add_assoc]
      exact onward

theorem scans_tokensFrom (offset : Nat) (characters : List Char) :
    Scans offset characters ((tokensFrom offset characters).map Token.entry) := by
  induction characters generalizing offset with
  | nil => exact .nothing offset
  | cons character rest ih =>
    cases reads : Instruction.ofChar? character with
    | none =>
      rw [tokensFrom_cons_none reads]
      apply Scans.precede
      · rw [mem_commentExcluded_iff, reads]
        exact Bool.false_ne_true
      · exact ih _
    | some instruction =>
      have excluded : character ∈ commentExcluded := by
        rw [mem_commentExcluded_iff, reads]
        rfl
      rw [tokensFrom_cons_some reads, List.map_cons, Token.entry, ← reads,
        ← utf8Size_of_ofChar? reads]
      exact .operator excluded (mem_operators_iff.2 excluded) (ih _)

/-- The scan of a text is that of its tokens, without any error. -/
theorem scans_iff {offset : Nat} {characters : List Char}
    {entries : List (Option Instruction × Span)} :
    Scans offset characters entries ↔ entries = (tokensFrom offset characters).map Token.entry := by
  constructor
  · exact eq_of_scans
  · rintro rfl
    exact scans_tokensFrom offset characters

/-! ### Texts -/

section Texts

variable {source : String} {token : Token} {before after : List Char} {character : Char}

theorem tokens_eq_filterMap (source : String) :
    tokens source =
      (utf8Bytes source).zipIdx.filterMap (fun entry => Token.ofByte? entry.2 entry.1) := by
  rw [utf8Bytes_eq_flatMap]
  exact tokensFrom_eq_filterMap 0 source.toList

theorem mem_tokens_iff :
    token ∈ tokens source ↔
      token.span.stop = token.span.start + 1 ∧
        ∃ byte character, (utf8Bytes source)[token.span.start]? = some byte ∧
          byte.toNat = character.toNat ∧
          Instruction.ofChar? character = some token.instruction := by
  rw [tokens_eq_filterMap, List.mem_filterMap]
  constructor
  · rintro ⟨⟨byte, offset⟩, member, given⟩
    obtain ⟨span, character, reads, code⟩ := Token.ofByte?_eq_some_iff.1 given
    have here := List.mk_mem_zipIdx_iff_getElem?.1 member
    rw [span]
    exact ⟨rfl, byte, character, here, code, reads⟩
  · rintro ⟨stop, byte, character, here, code, reads⟩
    refine ⟨(byte, token.span.start), List.mk_mem_zipIdx_iff_getElem?.2 here, ?_⟩
    apply Token.ofByte?_eq_some_iff.2
    refine ⟨?_, character, reads, code⟩
    rw [← stop]

/-- What stands between the ends of a span is the character of its instruction. -/
theorem slice?_of_mem_tokens (member : token ∈ tokens source) :
    slice? token.span.start token.span.stop source.toList = some [token.instruction.toChar] := by
  obtain ⟨before, after, split, span⟩ := mem_tokensFrom_iff.1 member
  have width : byteCount (before ++ [token.instruction.toChar]) = byteCount before + 1 := by
    rw [byteCount_append, byteCount, utf8Size_of_ofChar? (Instruction.ofChar?_toChar _), byteCount]
  have between := slice?_byteCount before [token.instruction.toChar] after
  rw [width, List.append_assoc, List.singleton_append, ← split] at between
  rw [span, Nat.zero_add]
  exact between

theorem mem_tokens_of_ofChar? {instruction : Instruction}
    (split : source.toList = before ++ character :: after)
    (reads : Instruction.ofChar? character = some instruction) :
    ⟨instruction, ⟨byteCount before, byteCount before + 1⟩⟩ ∈ tokens source := by
  apply mem_tokensFrom_iff.2
  refine ⟨before, after, ?_, ?_⟩
  · rw [split, Instruction.toChar_of_ofChar? reads]
  · rw [Nat.zero_add]

/-- A character of several bytes has all tokens before it or behind it. -/
theorem before_or_behind_of_long (split : source.toList = before ++ character :: after)
    (long : 1 < character.utf8Size) (member : token ∈ tokens source) :
    token.span.stop ≤ byteCount before ∨
      byteCount before + character.utf8Size ≤ token.span.start := by
  have skips : Instruction.ofChar? character = none := by
    cases reads : Instruction.ofChar? character with
    | none => rfl
    | some instruction => exact absurd (utf8Size_of_ofChar? reads) (Nat.ne_of_gt long)
  rw [tokens, split, tokensFrom_append, tokensFrom_cons_none skips, List.mem_append, Nat.zero_add]
    at member
  rcases member with early | late
  · left
    have ends := (span_of_mem_tokensFrom early).2
    rwa [Nat.zero_add] at ends
  · right
    exact (span_of_mem_tokensFrom late).1

theorem tokens_append (first second : String) :
    tokens (first ++ second) =
      tokens first ++ (tokens second).map (Token.shifted first.utf8ByteSize) := by
  rw [tokens, String.toList_append, tokensFrom_append, byteCount_toList, Nat.zero_add]
  exact congrArg (tokens first ++ ·) (tokensFrom_shifted first.utf8ByteSize 0 second.toList)

end Texts

/-- The tokens of a text are exact to the byte. -/
theorem tokens_exact (source : String) :
    -- Every byte that is the code of an instruction character gives a token, in the order of the bytes.
    tokens source = (utf8Bytes source).zipIdx.filterMap (fun entry => Token.ofByte? entry.2 entry.1) ∧
    (∀ token, token ∈ tokens source ↔
      token.span.stop = token.span.start + 1 ∧
        ∃ byte character, (utf8Bytes source)[token.span.start]? = some byte ∧
          byte.toNat = character.toNat ∧
          Instruction.ofChar? character = some token.instruction) ∧
    -- The spans do not overlap, and each holds the character of its instruction.
    (tokens source).Pairwise (fun first second => first.span.stop ≤ second.span.start) ∧
    (∀ token ∈ tokens source, slice? token.span.start token.span.stop source.toList =
      some [token.instruction.toChar]) ∧
    -- No instruction character is outside of a span, and no span is inside of a longer character.
    (∀ before character after, source.toList = before ++ character :: after →
      (∀ instruction, Instruction.ofChar? character = some instruction →
        ⟨instruction, ⟨byteCount before, byteCount before + 1⟩⟩ ∈ tokens source) ∧
      (1 < character.utf8Size → ∀ token ∈ tokens source,
        token.span.stop ≤ byteCount before ∨
          byteCount before + character.utf8Size ≤ token.span.start)) ∧
    -- Reading in two parts is reading at once.
    (∀ first second, source = first ++ second →
      tokens source = tokens first ++ (tokens second).map (Token.shifted first.utf8ByteSize)) ∧
    -- Reading by longest matches gives the tokens and no errors.
    ∀ entries, Scans 0 source.toList entries ↔ entries = (tokens source).map Token.entry := by
  refine ⟨tokens_eq_filterMap source, ?_, pairwise_tokensFrom 0 source.toList, ?_, ?_, ?_, ?_⟩
  · intro token
    exact mem_tokens_iff
  · intro token member
    exact slice?_of_mem_tokens member
  · intro before character after split
    constructor
    · intro instruction reads
      exact mem_tokens_of_ofChar? split reads
    · intro long token member
      exact before_or_behind_of_long split long member
  · rintro first second rfl
    exact tokens_append first second
  · intro entries
    exact scans_iff

/-- Between letters of two bytes each, the brackets have the offsets of their own bytes. -/
theorem tokens_exact_umlauts :
    tokens "ü(ß)" = [⟨.loopStart, ⟨2, 3⟩⟩, ⟨.loopEnd, ⟨5, 6⟩⟩] ∧
      slice? 5 6 "ü(ß)".toList = some [')'] ∧
      Scans 0 "ü(ß)".toList [(some .loopStart, ⟨2, 3⟩), (some .loopEnd, ⟨5, 6⟩)] := by
  have reads : tokens "ü(ß)" = [⟨.loopStart, ⟨2, 3⟩⟩, ⟨.loopEnd, ⟨5, 6⟩⟩] := by decide
  obtain ⟨-, -, -, slices, -, -, scans⟩ := tokens_exact "ü(ß)"
  refine ⟨reads, slices ⟨.loopEnd, ⟨5, 6⟩⟩ (by rw [reads]; decide), (scans _).2 ?_⟩
  rw [reads]
  rfl

end Crosswire
