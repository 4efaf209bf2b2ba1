/-
Module: Crosswire.Proofs.BracketNesting
Purpose: The one-pass table as a matching. At every position, bracket or not, inside the program or
  behind it, the table answers what the scan from there answers; and the pairs that it records nest. The
  two ends of a pair name each other, a loop start before a loop end, with well-nested instructions
  between them, and no two pairs cross. Brackets without a partner may stand anywhere between pairs: a
  loop start is on the stack of open loop starts until its partner is read, and its partner finds it on
  top.
Imports: Crosswire.Proofs.ReachableStates, Crosswire.Proofs.SequentialComposition
Main exports: Program.between, Program.exists_body_of_scanForward, Program.Partners,
  Program.Partners.nested, Pairing.target?_ofProgram, Pairing.Noncrossing, Pairing.table_matches_scans
-/
import Crosswire.Proofs.ReachableStates
import Crosswire.Proofs.SequentialComposition

namespace Crosswire

/-! ### What a forward scan passes over -/

/-- Before the loop end that a forward scan finds stands a block, and another one behind each of the loop
ends that close pending loops. -/
theorem Block.exists_of_firstUnpaired {depth offset : Nat} {instructions : List Instruction}
    (found : firstUnpaired .loopStart .loopEnd depth instructions = some offset) :
    ∃ (block : Block) (others : List Block), others.length = depth ∧
      instructions.take offset =
        block.flatten ++ others.flatMap (fun other => .loopEnd :: other.flatten) := by
  induction instructions generalizing depth offset with
  | nil => cases found
  | cons instruction rest ih =>
    rcases instruction.bracket_cases with rfl | rfl | plain
    · -- The loop that starts here is closed by the first of the loop ends behind its body.
      rw [firstUnpaired_opening] at found
      obtain ⟨earlier, there, rfl⟩ := Option.map_eq_some_iff.1 found
      obtain ⟨body, others, deep, split⟩ := ih there
      cases others with
      | nil => cases deep
      | cons after others =>
        refine ⟨.loop body after, others, Nat.succ.inj deep, ?_⟩
        rw [List.take_succ_cons, split]
        simp [flatten]
    · cases depth with
      | zero =>
        rw [firstUnpaired_closing_zero (by decide)] at found
        cases found
        exact ⟨.done, [], rfl, rfl⟩
      | succ depth =>
        rw [firstUnpaired_closing_succ (by decide)] at found
        obtain ⟨earlier, there, rfl⟩ := Option.map_eq_some_iff.1 found
        obtain ⟨block, others, deep, split⟩ := ih there
        refine ⟨.done, block :: others, congrArg (· + 1) deep, ?_⟩
        rw [List.take_succ_cons, split]
        rfl
    · rw [firstUnpaired_other (Instruction.ne_loopStart_of_plain plain)
        (Instruction.ne_loopEnd_of_plain plain)] at found
      obtain ⟨earlier, there, rfl⟩ := Option.map_eq_some_iff.1 found
      obtain ⟨block, others, deep, split⟩ := ih there
      refine ⟨.plain instruction plain block, others, deep, ?_⟩
      rw [List.take_succ_cons, split]
      rfl

/-- A scan that comes to rest at an offset finds nothing before it. -/
theorem firstUnpaired_take_eq_none {opening closing : Instruction} {depth offset length : Nat}
    {instructions : List Instruction}
    (found : firstUnpaired opening closing depth instructions = some offset)
    (short : length ≤ offset) :
    firstUnpaired opening closing depth (instructions.take length) = none := by
  cases early : firstUnpaired opening closing depth (instructions.take length) with
  | none => rfl
  | some other =>
    have whole := firstUnpaired_append_of_found early (instructions.drop length)
    rw [List.take_append_drop, found] at whole
    cases whole
    have bound := firstUnpaired_lt_length early
    rw [List.length_take] at bound
    omega

namespace Program

open Pairing (opensFrom opensFrom_append Pending)

variable {program : Program} {start stop : Nat}

/-- The instructions strictly between two positions. -/
def between (program : Program) (start stop : Nat) : List Instruction :=
  (program.instructions.take stop).drop (start + 1)

/-- A loop start whose forward scan finds an end is the start of a loop that stands in the program. -/
theorem exists_body_of_scanForward (here : program.get? start = some .loopStart)
    (found : scanForward program.instructions start = some stop) :
    ∃ body : Block, body.flatten = program.between start stop ∧ stop = start + 1 + body.size ∧
      program.instructions = program.instructions.take start ++ (Block.loop body .done).flatten ++
        program.instructions.drop (stop + 1) := by
  have ending : program.instructions[stop]? = some .loopEnd :=
    getElem?_of_scan (show scan .forward program.instructions start = some stop from found)
  obtain ⟨offset, there, rfl⟩ := Option.map_eq_some_iff.1 found
  obtain ⟨body, others, none, split⟩ := Block.exists_of_firstUnpaired there
  obtain rfl : others = [] := List.eq_nil_of_length_eq_zero none
  rw [List.flatMap_nil, List.append_nil] at split
  have size : body.size = offset := by
    rw [Block.size, ← split, List.length_take]
    exact Nat.min_eq_left (Nat.le_of_lt (firstUnpaired_lt_length there))
  have inner : program.between start (start + 1 + offset) = body.flatten := by
    rw [between, List.drop_take, Nat.add_sub_cancel_left, split]
  have behind : (program.instructions.drop (start + 1)).drop offset =
      .loopEnd :: program.instructions.drop (start + 1 + offset + 1) := by
    obtain ⟨inside, last⟩ := List.getElem?_eq_some_iff.1 ending
    rw [List.drop_drop, List.drop_eq_getElem_cons inside, last]
  refine ⟨body, inner.symm, by rw [size], ?_⟩
  calc program.instructions
      = program.instructions.take start ++
          .loopStart :: program.instructions.drop (start + 1) :=
        (Pairing.instructions_split here).2.symm
    _ = program.instructions.take start ++ .loopStart :: (body.flatten ++
          .loopEnd :: program.instructions.drop (start + 1 + offset + 1)) := by
        rw [← List.take_append_drop offset (program.instructions.drop (start + 1)), split, behind]
    _ = _ := by simp [Block.flatten]

/-! ### Partners -/

/-- A loop start and a loop end whose scans find each other. -/
structure Partners (program : Program) (start stop : Nat) : Prop where
  opens : program.get? start = some .loopStart
  closes : program.get? stop = some .loopEnd
  forward : scanForward program.instructions start = some stop
  backward : scanBackward program.instructions stop = some start

theorem partners_of_scanForward (here : program.get? start = some .loopStart)
    (found : scanForward program.instructions start = some stop) : program.Partners start stop := by
  have closes : program.get? stop = some .loopEnd :=
    getElem?_of_scan (show scan .forward program.instructions start = some stop from found)
  obtain ⟨body, -, rfl, split⟩ := exists_body_of_scanForward here found
  have inside := (Pairing.instructions_split here).1
  have taken : (program.instructions.take start).length = start := by
    rw [List.length_take]
    exact Nat.min_eq_left (Nat.le_of_lt inside)
  have back := Block.scanBackward_loop (program.instructions.take start)
    (program.instructions.drop (start + 1 + body.size + 1)) body .done
  rw [← split, taken] at back
  exact ⟨here, closes, found, back⟩

theorem partners_of_scanBackward (here : program.get? stop = some .loopEnd)
    (found : scanBackward program.instructions stop = some start) : program.Partners start stop := by
  have opens : program.get? start = some .loopStart :=
    getElem?_of_scan (show scan .backward program.instructions stop = some start from found)
  obtain ⟨pairing, table, size, -, pending⟩ := Pairing.ofProgram_split here
  obtain ⟨inside, -⟩ := Pairing.instructions_split here
  have newest : (opensFrom 0 [] (program.instructions.take stop))[0]? = some start := by
    rw [← Pairing.scanBackward_eq_newest, found]
  have room : stop + (Instruction.loopEnd :: program.instructions.drop (stop + 1)).length ≤
      pairing.partners.size := by
    rw [List.length_cons, List.length_drop, size]
    omega
  -- The loop end closes the newest loop start, so the pass pairs the two here.
  have paired := Pairing.target?_pairFrom_of_open pending newest _ room
  rw [← table, firstUnpaired_closing_zero (by decide), Pairing.target?_ofProgram_loopStart opens]
    at paired
  exact ⟨opens, here, paired, found⟩

namespace Partners

variable {other another : Nat}

theorem lt (partners : program.Partners start stop) : start < stop := by
  obtain ⟨offset, -, rfl⟩ := Option.map_eq_some_iff.1 partners.forward
  omega

/-- A loop start is open until its partner is read. -/
theorem isOpen (partners : program.Partners start stop) {length : Nat} (behind : start < length)
    (before : length ≤ stop) : start ∈ opensFrom 0 [] (program.instructions.take length) := by
  obtain ⟨inside, split⟩ := Pairing.instructions_split partners.opens
  obtain ⟨_, _, _, _, pending⟩ := Pairing.ofProgram_split partners.opens
  obtain ⟨offset, there, rfl⟩ := Option.map_eq_some_iff.1 partners.forward
  have taken : (program.instructions.take start).length = start := by
    rw [List.length_take]
    exact Nat.min_eq_left (Nat.le_of_lt inside)
  have read : program.instructions.take length = program.instructions.take start ++
      .loopStart :: (program.instructions.drop (start + 1)).take (length - (start + 1)) := by
    obtain ⟨more, rfl⟩ := Nat.exists_eq_add_of_lt behind
    conv_lhs => rw [← split]
    rw [List.take_append, List.take_of_length_le (by omega), taken, Nat.add_assoc start more 1,
      Nat.add_sub_cancel_left, List.take_succ_cons]
    congr 3
    omega
  rw [read, opensFrom_append, taken, Nat.zero_add]
  apply (Pairing.mem_opensFrom_iff pending.push List.getElem?_cons_zero _).2
  exact firstUnpaired_take_eq_none there (by omega)

/-- When a loop end is read, its partner is the newest open loop start. -/
theorem newest (partners : program.Partners start stop)
    (isOpen : other ∈ opensFrom 0 [] (program.instructions.take stop)) : other ≤ start := by
  obtain ⟨_, _, _, _, pending⟩ := Pairing.ofProgram_split partners.closes
  have first := partners.backward
  rw [Pairing.scanBackward_eq_newest] at first
  cases opens : opensFrom 0 [] (program.instructions.take stop) with
  | nil =>
    rw [opens] at isOpen
    cases isOpen
  | cons newest older =>
    rw [opens] at isOpen first pending
    obtain rfl : newest = start := by simpa using first
    rcases List.mem_cons.1 isOpen with rfl | isOlder
    · exact Nat.le_refl _
    · exact Nat.le_of_lt (List.rel_of_pairwise_cons (List.Pairwise.of_cons pending) isOlder)

/-- A pair that starts inside another ends inside it. -/
theorem nested (partners : program.Partners start stop) (others : program.Partners other another)
    (behind : start < other) (inside : other < stop) : another < stop := by
  apply Nat.lt_of_not_le
  intro late
  have := partners.newest (others.isOpen inside late)
  omega

/-- Two pairs are one behind the other or one inside the other. -/
theorem apart (partners : program.Partners start stop) (others : program.Partners other another)
    (different : start ≠ other) :
    stop < other ∨ another < start ∨ (start < other ∧ another < stop) ∨
      (other < start ∧ stop < another) := by
  have noEnd {first second third fourth : Nat} (one : program.Partners first second)
      (two : program.Partners third fourth) : second ≠ third := by
    rintro rfl
    have both := one.closes.symm.trans two.opens
    cases both
  have away := noEnd partners others
  have awayToo := noEnd others partners
  rcases Nat.lt_or_gt_of_ne different with behind | before
  · rcases Nat.lt_or_ge other stop with inside | outside
    · exact .inr (.inr (.inl ⟨behind, partners.nested others behind inside⟩))
    · exact .inl (by omega)
  · rcases Nat.lt_or_ge start another with inside | outside
    · exact .inr (.inr (.inr ⟨before, others.nested partners before inside⟩))
    · exact .inr (.inl (by omega))

/-- What stands between partners is a well-nested program. -/
theorem wellNested (partners : program.Partners start stop) :
    ∃ inner : Program, inner.instructions = program.between start stop ∧ inner.WellNested := by
  obtain ⟨body, inner, -, -⟩ := exists_body_of_scanForward partners.opens partners.forward
  exact ⟨body.program, inner, body.wellNested_program⟩

end Partners

end Program

namespace Pairing

variable {program : Program} {position first second : Nat}

/-! ### The table at every position -/

/-- The table pairs nothing but brackets. -/
theorem target?_ofProgram_plain {instruction : Instruction}
    (here : program.get? position = some instruction) (plain : instruction.isBracket = false) :
    (ofProgram program).target? position = none := by
  obtain ⟨pairing, table, -, empty, pending⟩ := ofProgram_split here
  rw [table, pairFrom_plain plain, ← empty]
  refine target?_pairFrom_of_settled (Nat.lt_succ_self position) ?_ _
  intro isOpen
  exact Nat.lt_irrefl position (pending.lt isOpen)

theorem target?_ofProgram_outside (outside : program.get? position = none) :
    (ofProgram program).target? position = none := by
  have beyond : program.instructions.length ≤ position := List.getElem?_eq_none_iff.1 outside
  rw [ofProgram, target?_pairFrom_of_beyond (Pending.nil 0) _ (by omega)]
  simp [target?, Program.length, beyond]

/-- The table answers what the scan that belongs to a position answers. -/
theorem target?_ofProgram (program : Program) (position : Nat) :
    (ofProgram program).target? position =
      match program.get? position with
      | some .loopStart => scanForward program.instructions position
      | some .loopEnd => scanBackward program.instructions position
      | _ => none := by
  cases here : program.get? position with
  | none => exact target?_ofProgram_outside here
  | some instruction =>
    rcases instruction.bracket_cases with rfl | rfl | plain
    · exact target?_ofProgram_loopStart here
    · exact target?_ofProgram_loopEnd here
    · rw [target?_ofProgram_plain here plain]
      cases instruction <;> simp_all [Instruction.isBracket]

/-- An entry of the table is one end of a pair. -/
theorem partners_of_target? (paired : (ofProgram program).target? first = some second) :
    program.Partners first second ∨ program.Partners second first := by
  rw [target?_ofProgram] at paired
  split at paired
  · next here => exact .inl (Program.partners_of_scanForward here paired)
  · next here => exact .inr (Program.partners_of_scanBackward here paired)
  · cases paired

theorem target?_of_partners (partners : program.Partners first second) :
    (ofProgram program).target? first = some second ∧
      (ofProgram program).target? second = some first := by
  rw [target?_ofProgram_loopStart partners.opens, target?_ofProgram_loopEnd partners.closes]
  exact ⟨partners.forward, partners.backward⟩

/-! ### The table as a matching -/

theorem partners_of_lt (paired : (ofProgram program).target? first = some second)
    (before : first < second) : program.Partners first second := by
  rcases partners_of_target? paired with partners | partners
  · exact partners
  · exact absurd partners.lt (Nat.not_lt_of_gt before)

/-- The entries of a table pair brackets of a program, and no two pairs cross. -/
structure Noncrossing (pairing : Pairing) (program : Program) : Prop where
  symmetric : ∀ first second, pairing.target? first = some second →
    pairing.target? second = some first
  /-- The smaller of two partners is a loop start and the larger a loop end. -/
  brackets : ∀ first second, pairing.target? first = some second →
    program.get? (min first second) = some .loopStart ∧
      program.get? (max first second) = some .loopEnd
  /-- Two pairs are disjoint, or one is strictly inside the other. -/
  apart : ∀ start stop other another, pairing.target? start = some stop → start < stop →
    pairing.target? other = some another → other < another → (start, stop) ≠ (other, another) →
    stop < other ∨ another < start ∨ (start < other ∧ another < stop) ∨
      (other < start ∧ stop < another)
  /-- Between two partners stands a well-nested program. -/
  inside : ∀ start stop, pairing.target? start = some stop → start < stop →
    ∃ inner : Program, inner.instructions = program.between start stop ∧ inner.WellNested

theorem noncrossing_ofProgram (program : Program) : (ofProgram program).Noncrossing program where
  symmetric first second paired := by
    rcases partners_of_target? paired with partners | partners
    · exact (target?_of_partners partners).2
    · exact (target?_of_partners partners).1
  brackets first second paired := by
    rcases partners_of_target? paired with partners | partners
    · rw [Nat.min_eq_left (Nat.le_of_lt partners.lt), Nat.max_eq_right (Nat.le_of_lt partners.lt)]
      exact ⟨partners.opens, partners.closes⟩
    · rw [Nat.min_eq_right (Nat.le_of_lt partners.lt), Nat.max_eq_left (Nat.le_of_lt partners.lt)]
      exact ⟨partners.opens, partners.closes⟩
  apart start stop other another paired before pairedToo beforeToo different := by
    refine (partners_of_lt paired before).apart (partners_of_lt pairedToo beforeToo) ?_
    rintro rfl
    rw [paired] at pairedToo
    cases pairedToo
    exact different rfl
  inside start stop paired before := (partners_of_lt paired before).wellNested

/-- The table made in one pass is the matching that the scans find, and this matching nests, also where
brackets are left without a partner. -/
theorem table_matches_scans (program : Program) :
    (∀ position, (ofProgram program).target? position =
      match program.get? position with
      | some .loopStart => scanForward program.instructions position
      | some .loopEnd => scanBackward program.instructions position
      | _ => none) ∧
    (ofProgram program).Noncrossing program :=
  ⟨target?_ofProgram program, noncrossing_ofProgram program⟩

/-- In `)(())(` the loop end and the loop start outside have no partner, and the two pairs between them
are nested. -/
theorem table_matches_scans_unbalanced :
    let program : Program :=
      ⟨[.loopEnd, .loopStart, .loopStart, .loopEnd, .loopEnd, .loopStart], rfl⟩
    (ofProgram program).target? 0 = none ∧ (ofProgram program).target? 5 = none ∧
      (ofProgram program).target? 4 = some 1 ∧ (ofProgram program).target? 3 = some 2 ∧
      (4 < 2 ∨ 3 < 1 ∨ (1 < 2 ∧ 3 < 4) ∨ (2 < 1 ∧ 4 < 3)) ∧
      ∃ inner : Program, inner.instructions = [.loopStart, .loopEnd] ∧ inner.WellNested := by
  intro program
  obtain ⟨scans, nested⟩ := table_matches_scans program
  have outer : (ofProgram program).target? 1 = some 4 := (scans 1).trans rfl
  have inner : (ofProgram program).target? 2 = some 3 := (scans 2).trans rfl
  exact ⟨(scans 0).trans rfl, (scans 5).trans rfl, nested.symmetric 1 4 outer,
    nested.symmetric 2 3 inner,
    nested.apart 1 4 2 3 outer (by decide) inner (by decide) (by decide),
    nested.inside 1 4 outer (by decide)⟩

end Pairing

end Crosswire
