/-
Module: Crosswire.Proofs.TerminalWriting
Purpose: What a print amounts to at the writer of a terminal. A print is written command by command, and
  each command in as many attempts as the writer needs; still, the writer ends up with what it would have
  taken of all the bytes at once, because what is cut off in one command leaves no room for the next one.
  This holds of one attempt, of the bytes of one command, and of everything that is written one after the
  other (`Sends`), so a print sends the bytes of its characters and is flushed if they all fit.
Imports: Crosswire.Terminal
Main exports: encodeCharacters, Terminal.absorb, Terminal.absorb_append, Terminal.send, Writing.Sends,
  Writing.Sends.andThen, Writing.Sends.forM, Writing.sends_all, Writing.sends_character,
  Terminal.write_eq_send
-/
import Crosswire.Terminal

namespace Crosswire

/-! ### The bytes of a print -/

/-- The text that switches a look on: colors first, then the five attributes. -/
def Style.sequence (style : Style) : List Char :=
  (Command.setForeground style.foreground).text ++ (Command.setBackground style.background).text ++
    style.attributes.flatMap fun setting => (Command.setAttribute setting).text

/-- What a terminal is sent for a character: the character, between switching its look on and
resetting it when it has one. -/
def StyledChar.sequence (styled : StyledChar) : List Char :=
  match styled.style with
  | none => [styled.character]
  | some style => style.sequence ++ styled.character :: rendition ['0']

/-- The text a terminal is sent for a print. -/
def terminalText (characters : List StyledChar) : List Char :=
  characters.flatMap StyledChar.sequence

/-- The bytes a terminal is sent for a print. -/
def encodeCharacters (characters : List StyledChar) : List UInt8 :=
  (terminalText characters).flatMap String.utf8EncodeChar

theorem encodeCharacters_append (first second : List StyledChar) :
    encodeCharacters (first ++ second) = encodeCharacters first ++ encodeCharacters second := by
  simp only [encodeCharacters, terminalText, List.flatMap_append]

/-- Characters without looks are sent as they are. -/
theorem encodeCharacters_plain (characters : List Char) :
    encodeCharacters (characters.map StyledChar.plain) = characters.flatMap String.utf8EncodeChar := by
  have text : terminalText (characters.map StyledChar.plain) = characters := by
    induction characters with
    | nil => rfl
    | cons character rest ih => exact congrArg (character :: ·) ih
  rw [encodeCharacters, text]

/-- A terminal is sent something for every character. -/
theorem StyledChar.sequence_ne_nil (styled : StyledChar) : styled.sequence ≠ [] := by
  obtain ⟨character, look⟩ := styled
  cases look with
  | none => exact List.cons_ne_nil _ _
  | some style => exact List.append_ne_nil_of_right_ne_nil _ (List.cons_ne_nil _ _)

/-! ### All bytes at once -/

namespace Terminal

@[simp] theorem capacity_taking (terminal : Terminal) (bytes : List UInt8) :
    (terminal.taking bytes).capacity = terminal.capacity := rfl

@[simp] theorem failingFlushes_taking (terminal : Terminal) (bytes : List UInt8) :
    (terminal.taking bytes).failingFlushes = terminal.failingFlushes := rfl

@[simp] theorem toList_accepted_taking (terminal : Terminal) (bytes : List UInt8) :
    (terminal.taking bytes).accepted.toList = terminal.accepted.toList ++ bytes :=
  Array.toList_appendList

@[simp] theorem size_taking (terminal : Terminal) (bytes : List UInt8) :
    (terminal.taking bytes).accepted.size = terminal.accepted.size + bytes.length := by
  rw [← Array.length_toList, toList_accepted_taking, List.length_append, Array.length_toList]

@[simp] theorem taking_nil (terminal : Terminal) : terminal.taking [] = terminal := by
  rw [taking, Array.appendList_nil]

theorem taking_taking (terminal : Terminal) (first second : List UInt8) :
    (terminal.taking first).taking second = terminal.taking (first ++ second) := by
  have grown : terminal.accepted ++ first ++ second = terminal.accepted ++ (first ++ second) := by
    apply Array.toList_inj.1
    simp only [Array.toList_appendList, List.append_assoc]
  simp only [taking, grown]

/-- The writer takes all the bytes, or those of them that it has room for and fails. -/
def absorb (terminal : Terminal) (bytes : List UInt8) : Except OutputFailure Unit × Terminal :=
  match terminal.capacity with
  | none => (.ok (), terminal.taking bytes)
  | some capacity =>
    let room := capacity - terminal.accepted.size
    if bytes.length ≤ room then
      (.ok (), terminal.taking bytes)
    else
      (.error terminal.exhausted, terminal.taking (bytes.take room))

/-- Send bytes to the writer. If they do not all fit, those that do are kept and nothing is flushed. -/
def send (terminal : Terminal) (bytes : List UInt8) : Except OutputFailure Unit × Terminal :=
  match terminal.absorb bytes with
  | (.ok _, filled) => Writing.flush.run.run filled
  | (.error failure, filled) => (.error failure, filled)

variable {terminal : Terminal} {limit : Nat} {bytes : List UInt8}

theorem absorb_of_unlimited (unlimited : terminal.capacity = none) (bytes : List UInt8) :
    terminal.absorb bytes = (.ok (), terminal.taking bytes) := by
  simp only [absorb, unlimited]

theorem absorb_of_fits (capacity : terminal.capacity = some limit)
    (fits : bytes.length ≤ limit - terminal.accepted.size) :
    terminal.absorb bytes = (.ok (), terminal.taking bytes) := by
  simp only [absorb, capacity, fits, if_true]

theorem absorb_of_cut (capacity : terminal.capacity = some limit)
    (cut : limit - terminal.accepted.size < bytes.length) :
    terminal.absorb bytes =
      (.error terminal.exhausted,
        terminal.taking (bytes.take (limit - terminal.accepted.size))) := by
  simp only [absorb, capacity, Nat.not_le.2 cut, if_false]

theorem absorb_nil (terminal : Terminal) : terminal.absorb [] = (.ok (), terminal) := by
  cases capacity : terminal.capacity with
  | none => rw [absorb_of_unlimited capacity, taking_nil]
  | some limit => rw [absorb_of_fits capacity (Nat.zero_le _), taking_nil]

/-- Bytes may be taken in two parts: the second part is only tried if the first one fits, and if the first
one does not, nothing of the second would have been taken. -/
theorem absorb_append (terminal : Terminal) (first second : List UInt8) :
    terminal.absorb (first ++ second) =
      match terminal.absorb first with
      | (.ok (), filled) => filled.absorb second
      | (.error failure, filled) => (.error failure, filled) := by
  cases capacity : terminal.capacity with
  | none =>
    have unlimited := (terminal.capacity_taking first).trans capacity
    simp only [absorb_of_unlimited capacity, absorb_of_unlimited unlimited, taking_taking]
  | some limit =>
    have capacityLater := (terminal.capacity_taking first).trans capacity
    have length : (first ++ second).length = first.length + second.length := List.length_append
    have size := terminal.size_taking first
    rcases Nat.lt_or_ge (limit - terminal.accepted.size) first.length with cut | fits
    · have cutToo : limit - terminal.accepted.size < (first ++ second).length := by omega
      rw [absorb_of_cut capacity cut, absorb_of_cut capacity cutToo,
        List.take_append_of_le_length (Nat.le_of_lt cut)]
    · rw [absorb_of_fits capacity fits]
      rcases Nat.lt_or_ge (limit - terminal.accepted.size) (first ++ second).length with cut | whole
      · have cutLater : limit - (terminal.taking first).accepted.size < second.length := by omega
        simp only [absorb_of_cut capacity cut, absorb_of_cut capacityLater cutLater, taking_taking, size,
          Nat.sub_add_eq, List.take_append, List.take_of_length_le fits]
        rfl
      · have fitsLater : second.length ≤ limit - (terminal.taking first).accepted.size := by omega
        simp only [absorb_of_fits capacity whole, absorb_of_fits capacityLater fitsLater, taking_taking]

theorem send_of_unlimited (unlimited : terminal.capacity = none) (bytes : List UInt8) :
    terminal.send bytes = Writing.flush.run.run (terminal.taking bytes) := by
  rw [send, absorb_of_unlimited unlimited]

theorem send_of_fits (capacity : terminal.capacity = some limit)
    (fits : bytes.length ≤ limit - terminal.accepted.size) :
    terminal.send bytes = Writing.flush.run.run (terminal.taking bytes) := by
  rw [send, absorb_of_fits capacity fits]

theorem send_of_cut (capacity : terminal.capacity = some limit)
    (cut : limit - terminal.accepted.size < bytes.length) :
    terminal.send bytes =
      (.error terminal.exhausted,
        terminal.taking (bytes.take (limit - terminal.accepted.size))) := by
  rw [send, absorb_of_cut capacity cut]

end Terminal

/-! ### Piece by piece -/

namespace Writing

theorem run_bind {α β : Type} (first : Writing α) (next : α → Writing β) (terminal : Terminal) :
    (first >>= next).run.run terminal =
      match first.run.run terminal with
      | (.ok value, after) => (next value).run.run after
      | (.error failure, after) => (.error failure, after) := by
  rcases ran : first.run.run terminal with ⟨failure | value, after⟩
  · simp only [ExceptT.run_bind, StateT.run_bind, ran]
    rfl
  · simp only [ExceptT.run_bind, StateT.run_bind, ran]
    rfl

theorem flush_ok_iff (terminal : Terminal) :
    (flush.run.run terminal).1 = .ok () ↔ terminal.flushes ∉ terminal.failingFlushes := by
  by_cases failing : terminal.flushes ∈ terminal.failingFlushes
  · have run : flush.run.run terminal = (.error .flushFailed, _) :=
      if_pos (List.contains_iff_mem.2 failing)
    rw [run]
    exact iff_of_false nofun (not_not_intro failing)
  · have run : flush.run.run terminal = (.ok (), _) := if_neg (mt List.contains_iff_mem.1 failing)
    rw [run]
    exact iff_of_true rfl failing

theorem flush_snd (terminal : Terminal) :
    (flush.run.run terminal).2 = { terminal with flushes := terminal.flushes + 1 } := by
  cases failing : terminal.failingFlushes.contains terminal.flushes with
  | true => exact congrArg Prod.snd (if_pos failing)
  | false => exact congrArg Prod.snd (if_neg (Bool.eq_false_iff.1 failing))

/-- Something written leaves the writer as if it had been offered these bytes, all at once. -/
def Sends (writing : Writing Unit) (bytes : List UInt8) : Prop :=
  ∀ terminal, writing.run.run terminal = terminal.absorb bytes

namespace Sends

variable {α : Type} {first second : Writing Unit} {early late : List UInt8}

theorem nothing : Sends (pure ()) [] := by
  intro terminal
  exact terminal.absorb_nil.symm

theorem andThen (begins : Sends first early) (goesOn : Sends second late) :
    Sends (do first; second) (early ++ late) := by
  intro terminal
  rw [run_bind, begins, Terminal.absorb_append]
  rcases terminal.absorb early with ⟨failure | done, filled⟩
  · rfl
  · exact goesOn filled

theorem forM {write : α → Writing Unit} {bytes : α → List UInt8}
    (each : ∀ item, Sends (write item) (bytes item)) (items : List α) :
    Sends (items.forM write) (items.flatMap bytes) := by
  induction items with
  | nil => exact nothing
  | cons item later ih => exact (each item).andThen ih

/-- What is flushed at the end is flushed if all its bytes fit. -/
theorem run_flush (writes : Sends first early) (terminal : Terminal) :
    (do first; flush : Writing Unit).run.run terminal = terminal.send early := by
  rw [run_bind, writes, Terminal.send]
  rcases terminal.absorb early with ⟨failure | done, filled⟩
  · rfl
  · rfl

end Sends

theorem run_offer (bytes : List UInt8) (terminal : Terminal) :
    (offer bytes).run.run terminal =
      match terminal.capacity with
      | none => (.ok bytes.length, terminal.taking bytes)
      | some capacity =>
        if capacity - terminal.accepted.size = 0 then
          (.error terminal.exhausted, terminal)
        else
          (.ok (min (capacity - terminal.accepted.size) bytes.length),
            terminal.taking (bytes.take (capacity - terminal.accepted.size))) := rfl

/-- One attempt: the writer takes some of the bytes, or has no room for any. -/
theorem offer_cases (first : UInt8) (rest : List UInt8) (terminal : Terminal) :
    (∃ more filled, (offer (first :: rest)).run.run terminal = (.ok (more + 1), filled) ∧
      terminal.absorb (first :: rest.take more) = (.ok (), filled)) ∨
    ∃ failure filled, (offer (first :: rest)).run.run terminal = (.error failure, filled) ∧
      terminal.absorb (first :: rest) = (.error failure, filled) := by
  rw [run_offer]
  cases capacity : terminal.capacity with
  | none =>
    refine .inl ⟨rest.length, terminal.taking (first :: rest), rfl, ?_⟩
    rw [List.take_length, Terminal.absorb_of_unlimited capacity]
  | some limit =>
    cases room : limit - terminal.accepted.size with
    | zero =>
      have cut : limit - terminal.accepted.size < (first :: rest).length := by
        rw [room, List.length_cons]
        exact Nat.succ_pos _
      refine .inr ⟨terminal.exhausted, terminal, ?_, ?_⟩
      · simp only [room, if_true]
      · rw [Terminal.absorb_of_cut capacity cut, room, List.take_zero, Terminal.taking_nil]
    | succ more =>
      have fits : (first :: rest.take more).length ≤ limit - terminal.accepted.size := by
        rw [room, List.length_cons, List.length_take]
        exact Nat.succ_le_succ (Nat.min_le_left _ _)
      have shorter : rest.take (min more rest.length) = rest.take more := List.take_eq_take_min.symm
      refine .inl ⟨min more rest.length, terminal.taking (first :: rest.take more), ?_, ?_⟩
      · simp only [room, Nat.succ_ne_zero, if_false, List.length_cons, Nat.add_min_add_right,
          List.take_succ_cons]
      · rw [shorter, Terminal.absorb_of_fits capacity fits]

/-- However many attempts it takes, the bytes are taken as far as they fit. -/
theorem sends_all (bytes : List UInt8) : Sends (all bytes) bytes := by
  fun_induction all bytes with
  | case1 => exact .nothing
  | case2 first rest ih =>
    intro terminal
    rw [run_bind]
    rcases offer_cases first rest terminal with ⟨more, filled, taken, absorbed⟩ |
      ⟨failure, filled, failed, absorbed⟩
    · -- one attempt has absorbed its own part, and the further attempts absorb the rest
      have split : first :: rest = (first :: rest.take more) ++ rest.drop more := by
        rw [List.cons_append, List.take_append_drop]
      rw [taken, split, Terminal.absorb_append, absorbed]
      exact ih more filled
    · rw [failed, absorbed]

theorem sends_queue (commands : List Command) :
    Sends (queue commands) (commands.flatMap Command.bytes) := by
  have each (command : Command) : Sends (all command.bytes) command.bytes := sends_all command.bytes
  exact Sends.forM each commands

/-- The parts in which a character with a look is written are the parts of its text. -/
theorem sends_character (styled : StyledChar) :
    Sends (character styled) (styled.sequence.flatMap String.utf8EncodeChar) := by
  obtain ⟨glyph, look⟩ := styled
  cases look with
  | none =>
    have whole := sends_queue [.print glyph]
    rw [List.flatMap_singleton] at whole
    exact whole
  | some style =>
    have each (setting : Attribute) := sends_queue [.setAttribute setting]
    have colors := sends_queue [.setForeground style.foreground, .setBackground style.background]
    have attributes := Sends.forM each style.attributes
    have closing := sends_queue [.print glyph, .setAttribute .reset]
    have whole := colors.andThen (attributes.andThen closing)
    have bytes : (StyledChar.sequence ⟨glyph, some style⟩).flatMap String.utf8EncodeChar =
        [.setForeground style.foreground, .setBackground style.background].flatMap Command.bytes ++
          ((style.attributes.flatMap fun setting => [.setAttribute setting].flatMap Command.bytes) ++
            [.print glyph, .setAttribute .reset].flatMap Command.bytes) := by
      simp [StyledChar.sequence, Style.sequence, Command.bytes, List.flatMap_assoc, Command.text,
        Attribute.parameters]
    rw [bytes]
    exact whole

theorem sends_characters (characters : List StyledChar) :
    Sends (characters.forM character) (encodeCharacters characters) := by
  rw [encodeCharacters, terminalText, List.flatMap_assoc]
  exact Sends.forM sends_character characters

end Writing

/-- A print sends the bytes of its characters: those that fit are taken, and the writer is flushed if all
of them do. -/
theorem Terminal.write_eq_send (characters : List StyledChar) (terminal : Terminal) :
    Sink.write characters terminal = terminal.send (encodeCharacters characters) :=
  (Writing.sends_characters characters).run_flush terminal

end Crosswire
