/-
Module: Crosswire.Proofs.BracketMatching
Purpose: The one-pass table and the scans find the same partner for every bracket. The pass keeps a
  stack of open loop starts, the scans keep a depth; the two are tied together by a single reading of
  the stack: its entry number `depth` is what a backward scan entered at that depth finds, and it is
  closed by what a forward scan entered at that depth finds. Nothing is assumed of the nesting, so the
  agreement covers programs whose brackets have no partner.
Imports: Crosswire.Bracket.Pairing, Mathlib (induction from the end of a list)
Main exports: Pairing.opensFrom, Pairing.getElem?_opensFrom, Pairing.target?_pairFrom_of_open,
  Pairing.target?_ofProgram_loopStart, Pairing.target?_ofProgram_loopEnd, Resolver.resolve_loopStart,
  Resolver.resolve_loopEnd
-/
import Mathlib.Data.List.Induction
import Crosswire.Bracket.Pairing

namespace Crosswire

/-- For the brackets, an instruction opens, closes or does not count. -/
theorem Instruction.bracket_cases (instruction : Instruction) :
    instruction = .loopStart ∨ instruction = .loopEnd ∨ instruction.isBracket = false := by
  cases instruction <;> simp [isBracket]

theorem Instruction.ne_loopStart_of_plain {instruction : Instruction}
    (plain : instruction.isBracket = false) : instruction ≠ .loopStart := by
  rintro rfl
  simp [isBracket] at plain

theorem Instruction.ne_loopEnd_of_plain {instruction : Instruction}
    (plain : instruction.isBracket = false) : instruction ≠ .loopEnd := by
  rintro rfl
  simp [isBracket] at plain

/-! ### One step of a scan -/

section Scan

variable {opening closing : Instruction}

theorem firstUnpaired_opening (depth : Nat) (rest : List Instruction) :
    firstUnpaired opening closing depth (opening :: rest) =
      (firstUnpaired opening closing (depth + 1) rest).map (· + 1) := by
  simp [firstUnpaired]

theorem firstUnpaired_closing_zero (distinct : closing ≠ opening) (rest : List Instruction) :
    firstUnpaired opening closing 0 (closing :: rest) = some 0 := by
  simp [firstUnpaired, distinct]

theorem firstUnpaired_closing_succ (distinct : closing ≠ opening) (depth : Nat)
    (rest : List Instruction) :
    firstUnpaired opening closing (depth + 1) (closing :: rest) =
      (firstUnpaired opening closing depth rest).map (· + 1) := by
  simp [firstUnpaired, distinct]

theorem firstUnpaired_other {instruction : Instruction} (notOpening : instruction ≠ opening)
    (notClosing : instruction ≠ closing) (depth : Nat) (rest : List Instruction) :
    firstUnpaired opening closing depth (instruction :: rest) =
      (firstUnpaired opening closing depth rest).map (· + 1) := by
  simp [firstUnpaired, notOpening, notClosing]

end Scan

namespace Pairing

/-! ### One step of the pass -/

theorem pairFrom_plain {instruction : Instruction} (plain : instruction.isBracket = false)
    (position : Nat) (opens : List Nat) (pairing : Pairing) (rest : List Instruction) :
    pairFrom position opens pairing (instruction :: rest) =
      pairFrom (position + 1) opens pairing rest := by
  cases instruction <;> simp_all [Instruction.isBracket, pairFrom]

/-- The loop starts still open after the pass has read some instructions, newest first. -/
def opensFrom (position : Nat) (opens : List Nat) : List Instruction → List Nat
  | [] => opens
  | .loopStart :: rest => opensFrom (position + 1) (position :: opens) rest
  | .loopEnd :: rest => opensFrom (position + 1) opens.tail rest
  | _ :: rest => opensFrom (position + 1) opens rest

theorem opensFrom_plain {instruction : Instruction} (plain : instruction.isBracket = false)
    (position : Nat) (opens : List Nat) (rest : List Instruction) :
    opensFrom position opens (instruction :: rest) = opensFrom (position + 1) opens rest := by
  cases instruction <;> simp_all [Instruction.isBracket, opensFrom]

/-- The pass over two stretches is the pass over the first, then over the second with the loop starts
that the first left open. -/
theorem pairFrom_append (position : Nat) (opens : List Nat) (pairing : Pairing)
    (first second : List Instruction) :
    pairFrom position opens pairing (first ++ second) =
      pairFrom (position + first.length) (opensFrom position opens first)
        (pairFrom position opens pairing first) second := by
  induction first generalizing position opens pairing with
  | nil => rfl
  | cons instruction rest ih =>
    have shift : position + (instruction :: rest).length = position + 1 + rest.length := by
      simp only [List.length_cons]
      omega
    rw [shift, List.cons_append]
    rcases instruction.bracket_cases with rfl | rfl | plain
    · exact ih (position + 1) (position :: opens) pairing
    · cases opens with
      | nil => exact ih (position + 1) [] pairing
      | cons start older => exact ih (position + 1) older (pairing.pair start position)
    · rw [pairFrom_plain plain, pairFrom_plain plain, opensFrom_plain plain]
      exact ih (position + 1) opens pairing

theorem opensFrom_append (position : Nat) (opens : List Nat) (first second : List Instruction) :
    opensFrom position opens (first ++ second) =
      opensFrom (position + first.length) (opensFrom position opens first) second := by
  induction first generalizing position opens with
  | nil => rfl
  | cons instruction rest ih =>
    have shift : position + (instruction :: rest).length = position + 1 + rest.length := by
      simp only [List.length_cons]
      omega
    rw [shift, List.cons_append]
    rcases instruction.bracket_cases with rfl | rfl | plain
    · exact ih (position + 1) (position :: opens)
    · exact ih (position + 1) opens.tail
    · rw [opensFrom_plain plain, opensFrom_plain plain]
      exact ih (position + 1) opens

/-! ### The open loop starts are what backward scans find -/

/-- Entry number `depth` of the open loop starts is where a backward scan that starts with `depth`
pending loop ends comes to rest. -/
theorem getElem?_opensFrom (before : List Instruction) (depth : Nat) :
    (opensFrom 0 [] before)[depth]? =
      (firstUnpaired .loopEnd .loopStart depth before.reverse).map (before.length - 1 - ·) := by
  -- Both sides are driven by the newest instruction, so the induction appends at the end.
  induction before using List.reverseRecOn generalizing depth with
  | nil => rfl
  | append_singleton earlier instruction ih =>
    have back (offset : Nat) : earlier.length + 1 - 1 - (offset + 1) = earlier.length - 1 - offset := by
      omega
    rw [opensFrom_append, List.reverse_append, List.length_append]
    simp only [List.reverse_cons, List.reverse_nil, List.nil_append, List.singleton_append,
      List.length_singleton, Nat.zero_add]
    rcases instruction.bracket_cases with rfl | rfl | plain
    · cases depth with
      | zero =>
        rw [firstUnpaired_closing_zero (by decide)]
        simp [opensFrom]
      | succ depth =>
        rw [firstUnpaired_closing_succ (by decide), Option.map_map]
        simp only [opensFrom, List.getElem?_cons_succ, ih, Function.comp_def, back]
    · rw [firstUnpaired_opening, Option.map_map]
      simp only [opensFrom, List.getElem?_tail, ih, Function.comp_def, back]
    · rw [firstUnpaired_other (Instruction.ne_loopEnd_of_plain plain)
        (Instruction.ne_loopStart_of_plain plain), Option.map_map, opensFrom_plain plain]
      simp only [opensFrom, ih, Function.comp_def, back]

/-! ### What the pass writes -/

/-- The stack of loop starts open before a position: newest first, and all of them before it. -/
def Pending (position : Nat) (opens : List Nat) : Prop :=
  (position :: opens).Pairwise (· > ·)

namespace Pending

variable {position start : Nat} {opens older : List Nat}

theorem lt (pending : Pending position opens) (isOpen : start ∈ opens) : start < position :=
  List.rel_of_pairwise_cons pending isOpen

theorem nil (position : Nat) : Pending position [] :=
  List.pairwise_singleton _ _

theorem later (pending : Pending position opens) : Pending (position + 1) opens := by
  refine List.pairwise_cons.2 ⟨?_, List.Pairwise.of_cons pending⟩
  intro start isOpen
  have := pending.lt isOpen
  omega

theorem push (pending : Pending position opens) : Pending (position + 1) (position :: opens) := by
  refine List.pairwise_cons.2 ⟨?_, pending⟩
  intro start isOpen
  rcases List.mem_cons.1 isOpen with rfl | isOlder
  · exact Nat.lt_succ_self start
  · have := pending.lt isOlder
    omega

theorem pop (pending : Pending position (start :: older)) : Pending (position + 1) older := by
  have inner : (position :: older).Pairwise (· > ·) :=
    List.Pairwise.sublist (by simp) pending
  exact later inner

theorem start_not_mem (pending : Pending position (start :: older)) : start ∉ older := by
  intro isOlder
  have := List.rel_of_pairwise_cons (List.Pairwise.of_cons pending) isOlder
  omega

/-- Reading on keeps the stack in order. -/
theorem opensFrom (pending : Pending position opens) (rest : List Instruction) :
    Pending (position + rest.length) (Pairing.opensFrom position opens rest) := by
  induction rest generalizing position opens with
  | nil => exact pending
  | cons instruction rest ih =>
    have shift : position + (instruction :: rest).length = position + 1 + rest.length := by
      simp only [List.length_cons]
      omega
    rw [shift]
    rcases instruction.bracket_cases with rfl | rfl | plain
    · exact ih pending.push
    · cases opens with
      | nil => exact ih (nil (position + 1))
      | cons start older => exact ih pending.pop
    · rw [opensFrom_plain plain]
      exact ih pending.later

end Pending

section Table

variable {position start stop other : Nat} {opens : List Nat} {pairing : Pairing}

@[simp] theorem size_pair (pairing : Pairing) (start stop : Nat) :
    (pairing.pair start stop).partners.size = pairing.partners.size := by
  simp [pair]

theorem target?_pair_stop (room : stop < pairing.partners.size) :
    (pairing.pair start stop).target? stop = some start := by
  simp [pair, target?, room]

theorem target?_pair_start (room : start < pairing.partners.size) (apart : start ≠ stop) :
    (pairing.pair start stop).target? start = some stop := by
  simp [pair, target?, room, apart.symm]

theorem target?_pair_of_ne (notStart : other ≠ start) (notStop : other ≠ stop) :
    (pairing.pair start stop).target? other = pairing.target? other := by
  simp [pair, target?, notStart.symm, notStop.symm]

@[simp] theorem size_pairFrom (position : Nat) (opens : List Nat) (pairing : Pairing)
    (rest : List Instruction) :
    (pairFrom position opens pairing rest).partners.size = pairing.partners.size := by
  fun_induction pairFrom position opens pairing rest <;> simp_all

/-- The pass leaves a position alone that it has passed and that is not open. -/
theorem target?_pairFrom_of_settled (passed : other < position) (settled : other ∉ opens)
    (rest : List Instruction) :
    (pairFrom position opens pairing rest).target? other = pairing.target? other := by
  induction rest generalizing position opens pairing with
  | nil => rfl
  | cons instruction rest ih =>
    rcases instruction.bracket_cases with rfl | rfl | plain
    · refine ih (by omega) ?_
      simp only [List.mem_cons, not_or]
      exact ⟨by omega, settled⟩
    · cases opens with
      | nil => exact ih (by omega) settled
      | cons start older =>
        simp only [List.mem_cons, not_or] at settled
        calc (pairFrom (position + 1) older (pairing.pair start position) rest).target? other
            = (pairing.pair start position).target? other := ih (by omega) settled.2
          _ = pairing.target? other := target?_pair_of_ne settled.1 (by omega)
    · rw [pairFrom_plain plain]
      exact ih (by omega) settled

/-- The pass does not reach a position behind what it reads. -/
theorem target?_pairFrom_of_beyond (pending : Pending position opens) (rest : List Instruction)
    (beyond : position + rest.length ≤ other) :
    (pairFrom position opens pairing rest).target? other = pairing.target? other := by
  induction rest generalizing position opens pairing with
  | nil => rfl
  | cons instruction rest ih =>
    rw [List.length_cons] at beyond
    rcases instruction.bracket_cases with rfl | rfl | plain
    · exact ih pending.push (by omega)
    · cases opens with
      | nil => exact ih (Pending.nil _) (by omega)
      | cons start older =>
        have earlier : start < position := pending.lt (List.mem_cons_self ..)
        calc (pairFrom (position + 1) older (pairing.pair start position) rest).target? other
            = (pairing.pair start position).target? other := ih pending.pop (by omega)
          _ = pairing.target? other := target?_pair_of_ne (by omega) (by omega)
    · rw [pairFrom_plain plain]
      exact ih pending.later (by omega)

/-- The open loop start number `depth` is paired with what a forward scan that starts with `depth`
pending loop starts finds, and keeps its entry if the scan finds nothing. -/
theorem target?_pairFrom_of_open {depth : Nat} (pending : Pending position opens)
    (entry : opens[depth]? = some start) (rest : List Instruction)
    (room : position + rest.length ≤ pairing.partners.size) :
    (pairFrom position opens pairing rest).target? start =
      ((firstUnpaired .loopStart .loopEnd depth rest).map (position + ·)).or
        (pairing.target? start) := by
  induction rest generalizing position opens pairing depth with
  | nil => rfl
  | cons instruction rest ih =>
    rw [List.length_cons] at room
    have shift (found : Option Nat) :
        (found.map (· + 1)).map (position + ·) = found.map (position + 1 + ·) := by
      cases found with
      | none => rfl
      | some offset =>
        simp only [Option.map_some, Option.some.injEq]
        omega
    rcases instruction.bracket_cases with rfl | rfl | plain
    · rw [firstUnpaired_opening, shift]
      exact ih pending.push (by rw [List.getElem?_cons_succ]; exact entry) (by omega)
    · cases opens with
      | nil => simp at entry
      | cons newest older =>
        have newestLt : newest < position := pending.lt (List.mem_cons_self ..)
        cases depth with
        | zero =>
          -- The newest loop start is closed here, and nothing touches it afterwards.
          obtain rfl : newest = start := by simpa using entry
          rw [firstUnpaired_closing_zero (by decide)]
          calc (pairFrom (position + 1) older (pairing.pair newest position) rest).target? newest
              = (pairing.pair newest position).target? newest :=
                target?_pairFrom_of_settled (by omega) pending.start_not_mem rest
            _ = some position := target?_pair_start (by omega) (by omega)
        | succ depth =>
          have isOlder : start ∈ older := List.mem_of_getElem? entry
          have apart : start ≠ newest := by
            rintro rfl
            exact pending.start_not_mem isOlder
          have earlier : start < position := pending.lt (List.mem_cons_of_mem _ isOlder)
          rw [firstUnpaired_closing_succ (by decide), shift]
          have unchanged : (pairing.pair newest position).target? start = pairing.target? start :=
            target?_pair_of_ne apart (by omega)
          rw [← unchanged]
          exact ih pending.pop entry (by rw [size_pair]; omega)
    · rw [firstUnpaired_other (Instruction.ne_loopStart_of_plain plain)
        (Instruction.ne_loopEnd_of_plain plain), shift, pairFrom_plain plain]
      exact ih pending.later entry (by omega)

end Table

/-! ### The table of a program -/

section Program

variable {program : Program} {position : Nat}

/-- A program is what stands before a position, the instruction there, and what stands behind it. -/
theorem instructions_split {instruction : Instruction}
    (here : program.get? position = some instruction) :
    position < program.instructions.length ∧
      program.instructions.take position ++
        instruction :: program.instructions.drop (position + 1) = program.instructions := by
  obtain ⟨inside, rfl⟩ := List.getElem?_eq_some_iff.1 here
  refine ⟨inside, ?_⟩
  rw [← List.drop_eq_getElem_cons inside, List.take_append_drop]

/-- The table of a program, cut at a position: the pass has read what stands before the position, and
nothing has been written at it yet. -/
theorem ofProgram_split {instruction : Instruction}
    (here : program.get? position = some instruction) :
    ∃ pairing : Pairing,
      ofProgram program = pairFrom position (opensFrom 0 [] (program.instructions.take position))
        pairing (instruction :: program.instructions.drop (position + 1)) ∧
      pairing.partners.size = program.instructions.length ∧
      pairing.target? position = none ∧
      Pending position (opensFrom 0 [] (program.instructions.take position)) := by
  obtain ⟨inside, split⟩ := instructions_split here
  have taken : (program.instructions.take position).length = position := by
    rw [List.length_take]
    omega
  refine ⟨pairFrom 0 [] ⟨Array.replicate program.length none⟩ (program.instructions.take position),
    ?_, ?_, ?_, ?_⟩
  · have cut := pairFrom_append 0 [] ⟨Array.replicate program.length none⟩
      (program.instructions.take position) (instruction :: program.instructions.drop (position + 1))
    rw [split, taken, Nat.zero_add] at cut
    exact cut
  · rw [size_pairFrom]
    simp [Program.length]
  · rw [target?_pairFrom_of_beyond (Pending.nil 0) _ (by omega)]
    simp [target?, Program.length, inside]
  · have pending := (Pending.nil 0).opensFrom (program.instructions.take position)
    rw [taken, Nat.zero_add] at pending
    exact pending

/-- The table pairs a loop start with what the forward scan finds. -/
theorem target?_ofProgram_loopStart (here : program.get? position = some .loopStart) :
    (ofProgram program).target? position = scanForward program.instructions position := by
  obtain ⟨pairing, table, size, empty, pending⟩ := ofProgram_split here
  have inside := (instructions_split here).1
  have room : position + 1 + (program.instructions.drop (position + 1)).length ≤
      pairing.partners.size := by
    rw [List.length_drop, size]
    omega
  rw [table]
  calc (pairFrom (position + 1) (position :: opensFrom 0 [] (program.instructions.take position))
        pairing (program.instructions.drop (position + 1))).target? position
      = (scanForward program.instructions position).or (pairing.target? position) :=
        target?_pairFrom_of_open pending.push List.getElem?_cons_zero _ room
    _ = scanForward program.instructions position := by rw [empty, Option.or_none]

/-- The table pairs a loop end with what the backward scan finds. -/
theorem target?_ofProgram_loopEnd (here : program.get? position = some .loopEnd) :
    (ofProgram program).target? position = scanBackward program.instructions position := by
  obtain ⟨pairing, table, size, empty, pending⟩ := ofProgram_split here
  have inside := (instructions_split here).1
  have newest : (opensFrom 0 [] (program.instructions.take position))[0]? =
      scanBackward program.instructions position :=
    getElem?_opensFrom (program.instructions.take position) 0
  rw [table, ← newest]
  cases opens : opensFrom 0 [] (program.instructions.take position) with
  | nil =>
    calc (pairFrom (position + 1) [] pairing (program.instructions.drop (position + 1))).target?
          position
        = pairing.target? position :=
          target?_pairFrom_of_settled (Nat.lt_succ_self _) List.not_mem_nil _
      _ = none := empty
  | cons start older =>
    rw [opens] at pending
    have notOlder : position ∉ older := by
      intro isOlder
      exact Nat.lt_irrefl _ (pending.lt (List.mem_cons_of_mem _ isOlder))
    calc (pairFrom (position + 1) older (pairing.pair start position)
          (program.instructions.drop (position + 1))).target? position
        = (pairing.pair start position).target? position :=
          target?_pairFrom_of_settled (Nat.lt_succ_self _) notOlder _
      _ = some start := target?_pair_stop (by omega)

end Program

end Pairing

/-! ### Resolving a jump

A jump is only ever resolved at the bracket that takes it, forward from a loop start and backward from
a loop end. There both resolvers answer what the scan answers; elsewhere they may differ. -/

namespace Resolver

variable {program : Program} {position : Nat}

theorem resolve_loopStart (here : program.get? position = some .loopStart) (cached : Bool) :
    (ofProgram program cached).resolve program position .forward =
      scanForward program.instructions position := by
  cases cached with
  | false => rfl
  | true => exact Pairing.target?_ofProgram_loopStart here

theorem resolve_loopEnd (here : program.get? position = some .loopEnd) (cached : Bool) :
    (ofProgram program cached).resolve program position .backward =
      scanBackward program.instructions position := by
  cases cached with
  | false => rfl
  | true => exact Pairing.target?_ofProgram_loopEnd here

end Resolver

end Crosswire
