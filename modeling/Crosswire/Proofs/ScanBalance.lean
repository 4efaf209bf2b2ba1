/-
Module: Crosswire.Proofs.ScanBalance
Purpose: Where a scan comes to rest, said without its depth counter. From any position, bracket or not,
  a forward scan finds the first point up to which one more loop is closed than opened, and a backward
  scan the last point from which one more loop is opened than closed. The counter is at every moment the
  surplus of the brackets passed so far (`firstUnpaired_passed`), so it has no occasion to fall below
  zero. Read by the height of a prefix, its loop starts less its loop ends, both scans look for the same
  height, which makes them inverse to each other between a loop start and a loop end.
Imports: Crosswire.Proofs.BracketNesting, Mathlib (least and greatest elements)
Main exports: stretch, closingPoints, openingPoints, firstUnpaired_passed, isLeast_of_scanForward,
  isGreatest_of_scanBackward, height, scanForward_eq_iff_scanBackward_eq, scans_find_balance
-/
import Mathlib.Order.Bounds.Basic
import Crosswire.Proofs.BracketNesting

namespace Crosswire

/-! ### The depth of a scan -/

section Depth

variable {opening closing : Instruction} {depth offset : Nat} {instructions passed : List Instruction}

/-- A scan that has found nothing so far goes on with the number of brackets that are still pending:
those pending before and those opened since, less those closed. -/
theorem firstUnpaired_passed (distinct : closing ≠ opening)
    (nothing : firstUnpaired opening closing depth passed = none) :
    ∃ pending, depth + passed.count opening = passed.count closing + pending ∧
      ∀ behind, firstUnpaired opening closing depth (passed ++ behind) =
        (firstUnpaired opening closing pending behind).map (passed.length + ·) := by
  induction passed generalizing depth with
  | nil => exact ⟨depth, by simp, by simp⟩
  | cons instruction rest ih =>
    have longer (found : Option Nat) :
        (found.map (rest.length + ·)).map (· + 1) =
          found.map ((instruction :: rest).length + ·) := by
      rw [Option.map_map]
      congr 1
      funext offset
      simp only [Function.comp_apply, List.length_cons]
      omega
    by_cases opens : instruction = opening
    · subst opens
      rw [firstUnpaired_opening, Option.map_eq_none_iff] at nothing
      obtain ⟨pending, counted, onward⟩ := ih nothing
      refine ⟨pending, ?_, ?_⟩
      · rw [List.count_cons_self, List.count_cons_of_ne distinct.symm]
        omega
      · intro behind
        rw [List.cons_append, firstUnpaired_opening, onward, longer]
    · by_cases closes : instruction = closing
      · subst closes
        cases depth with
        | zero =>
          rw [firstUnpaired_closing_zero distinct] at nothing
          cases nothing
        | succ depth =>
          rw [firstUnpaired_closing_succ distinct, Option.map_eq_none_iff] at nothing
          obtain ⟨pending, counted, onward⟩ := ih nothing
          refine ⟨pending, ?_, ?_⟩
          · rw [List.count_cons_self, List.count_cons_of_ne distinct]
            omega
          · intro behind
            rw [List.cons_append, firstUnpaired_closing_succ distinct, onward, longer]
      · rw [firstUnpaired_other opens closes, Option.map_eq_none_iff] at nothing
        obtain ⟨pending, counted, onward⟩ := ih nothing
        refine ⟨pending, ?_, ?_⟩
        · rw [List.count_cons_of_ne opens, List.count_cons_of_ne closes]
          exact counted
        · intro behind
          rw [List.cons_append, firstUnpaired_other opens closes, onward, longer]

/-- As long as a scan finds nothing, no more brackets have been closed than were open. -/
theorem count_closing_le (distinct : closing ≠ opening)
    (nothing : firstUnpaired opening closing depth passed = none) :
    passed.count closing ≤ depth + passed.count opening := by
  obtain ⟨pending, counted, -⟩ := firstUnpaired_passed distinct nothing
  omega

/-- A scan comes to rest where one more bracket is closed than was open. -/
theorem count_closing_eq (distinct : closing ≠ opening)
    (found : firstUnpaired opening closing depth instructions = some offset) :
    (instructions.take (offset + 1)).count closing =
      depth + (instructions.take (offset + 1)).count opening + 1 := by
  have here := getElem?_of_firstUnpaired found
  have nothing := firstUnpaired_take_eq_none found (Nat.le_refl offset)
  have inside := firstUnpaired_lt_length found
  obtain ⟨pending, counted, onward⟩ := firstUnpaired_passed distinct nothing
  have behind := onward (instructions.drop offset)
  obtain ⟨bound, last⟩ := List.getElem?_eq_some_iff.1 here
  -- The bracket where the scan rests closes nothing that is pending.
  have none : pending = 0 := by
    rw [List.take_append_drop, found, List.drop_eq_getElem_cons bound, last, List.length_take,
      Nat.min_eq_left (Nat.le_of_lt inside)] at behind
    cases pending with
    | zero => rfl
    | succ pending =>
      rw [firstUnpaired_closing_succ distinct, Option.map_map] at behind
      obtain ⟨more, -, rests⟩ := Option.map_eq_some_iff.1 behind.symm
      simp only [Function.comp_apply] at rests
      omega
  rw [List.take_succ_eq_append_getElem bound, last, List.count_append, List.count_append,
    List.count_singleton_self, List.count_singleton, if_neg (by simpa using distinct)]
  omega

/-- What a scan finds in a first part of the instructions it finds in all of them. -/
theorem firstUnpaired_of_take {length : Nat}
    (found : firstUnpaired opening closing depth (instructions.take length) = some offset) :
    firstUnpaired opening closing depth instructions = some offset := by
  have whole := firstUnpaired_append_of_found found (instructions.drop length)
  rw [List.take_append_drop] at whole
  exact whole

theorem firstUnpaired_take_of_none {length : Nat}
    (nothing : firstUnpaired opening closing depth instructions = none) :
    firstUnpaired opening closing depth (instructions.take length) = none := by
  cases early : firstUnpaired opening closing depth (instructions.take length) with
  | none => rfl
  | some other =>
    rw [firstUnpaired_of_take early] at nothing
    cases nothing

end Depth

/-! ### Points of balance -/

/-- The instructions from the position `first` on, up to but without the position `stop`. -/
def stretch (instructions : List Instruction) (first stop : Nat) : List Instruction :=
  (instructions.take stop).drop first

/-- The points behind a position up to which, the point included, one more loop is closed than
opened. -/
def closingPoints (instructions : List Instruction) (position : Nat) : Set Nat :=
  {point | position < point ∧
    (stretch instructions (position + 1) (point + 1)).count .loopEnd =
      (stretch instructions (position + 1) (point + 1)).count .loopStart + 1}

/-- The points before a position from which on, the position excluded, one more loop is opened than
closed. -/
def openingPoints (instructions : List Instruction) (position : Nat) : Set Nat :=
  {point | point < min position instructions.length ∧
    (stretch instructions point position).count .loopStart =
      (stretch instructions point position).count .loopEnd + 1}

section Points

variable {instructions : List Instruction} {position point start stop here : Nat}

/-- What a forward scan has read before it comes to `stop`. -/
theorem take_drop_eq_stretch (instructions : List Instruction) (first length : Nat) :
    (instructions.drop first).take length = stretch instructions first (first + length) := by
  rw [stretch, List.drop_take, Nat.add_sub_cancel_left]

/-- What a backward scan has read before it comes to `first`, in the order of the program. -/
theorem count_take_reverse (instruction : Instruction)
    (behind : start ≤ min position instructions.length) :
    ((instructions.take position).reverse.take (min position instructions.length - start)).count
        instruction = (stretch instructions start position).count instruction := by
  have rest : min position instructions.length - (min position instructions.length - start) = start := by
    omega
  rw [List.take_reverse, List.count_reverse, List.length_take, rest, stretch]

/-- A forward scan that passes a point has not met a closing point there. -/
theorem not_mem_closingPoints {length : Nat}
    (nothing : firstUnpaired .loopStart .loopEnd 0
      ((instructions.drop (position + 1)).take (length + 1)) = none) :
    position + 1 + length ∉ closingPoints instructions position := by
  have bound := count_closing_le (by decide) nothing
  rw [take_drop_eq_stretch, ← Nat.add_assoc] at bound
  rintro ⟨-, surplus⟩
  omega

theorem not_mem_openingPoints
    (nothing : firstUnpaired .loopEnd .loopStart 0
      ((instructions.take position).reverse.take (min position instructions.length - point)) = none) :
    point ∉ openingPoints instructions position := by
  rintro ⟨inside, surplus⟩
  have bound := count_closing_le (by decide) nothing
  rw [count_take_reverse _ (Nat.le_of_lt inside), count_take_reverse _ (Nat.le_of_lt inside)] at bound
  omega

theorem exists_offset_of_lt (behind : position < point) : ∃ offset, point = position + 1 + offset := by
  obtain ⟨offset, rfl⟩ := Nat.exists_eq_add_of_lt behind
  exact ⟨offset, by omega⟩

/-! ### The scans find them -/

theorem isLeast_of_scanForward (found : scanForward instructions position = some stop) :
    IsLeast (closingPoints instructions position) stop := by
  obtain ⟨offset, there, rfl⟩ := Option.map_eq_some_iff.1 found
  refine ⟨⟨by omega, ?_⟩, ?_⟩
  · have surplus := count_closing_eq (by decide) there
    rw [take_drop_eq_stretch, ← Nat.add_assoc] at surplus
    omega
  · intro point member
    obtain ⟨early, rfl⟩ := exists_offset_of_lt member.1
    apply Nat.le_of_not_lt
    intro before
    exact not_mem_closingPoints (firstUnpaired_take_eq_none there (by omega)) member

theorem closingPoints_eq_empty (nothing : scanForward instructions position = none) :
    closingPoints instructions position = ∅ := by
  rw [Set.eq_empty_iff_forall_notMem]
  intro point member
  obtain ⟨offset, rfl⟩ := exists_offset_of_lt member.1
  exact not_mem_closingPoints
    (firstUnpaired_take_of_none (Option.map_eq_none_iff.1 nothing)) member

theorem isGreatest_of_scanBackward (found : scanBackward instructions position = some start) :
    IsGreatest (openingPoints instructions position) start := by
  obtain ⟨offset, there, rfl⟩ := Option.map_eq_some_iff.1 found
  have inside := firstUnpaired_lt_length there
  rw [List.length_reverse, List.length_take] at inside
  rw [List.length_take]
  have read : offset + 1 = min position instructions.length -
      (min position instructions.length - 1 - offset) := by
    omega
  refine ⟨⟨by omega, ?_⟩, ?_⟩
  · have surplus := count_closing_eq (by decide) there
    rw [read, count_take_reverse _ (by omega), count_take_reverse _ (by omega)] at surplus
    omega
  · intro point member
    apply Nat.le_of_not_lt
    intro behind
    exact not_mem_openingPoints (firstUnpaired_take_eq_none there (by omega)) member

theorem openingPoints_eq_empty (nothing : scanBackward instructions position = none) :
    openingPoints instructions position = ∅ := by
  rw [Set.eq_empty_iff_forall_notMem]
  intro point
  exact not_mem_openingPoints (firstUnpaired_take_of_none (Option.map_eq_none_iff.1 nothing))

/-- A search whose answers are the best of some points, and that fails only if there are no points,
finds the best point exactly if there is one. -/
theorem found_iff {found : Option Nat} {points : Set Nat} {best : Nat → Prop}
    (member : ∀ {point}, best point → point ∈ points)
    (unique : ∀ {point other}, best point → best other → point = other)
    (rests : ∀ {point}, found = some point → best point) (fails : found = none → points = ∅) :
    (∀ point, found = some point ↔ best point) ∧ (found = none ↔ points = ∅) := by
  cases found with
  | none =>
    have empty := fails rfl
    refine ⟨fun point => ⟨rests, ?_⟩, ⟨fails, fun _ => rfl⟩⟩
    intro isBest
    have impossible := member isBest
    rw [empty] at impossible
    exact absurd impossible (Set.notMem_empty point)
  | some other =>
    have isBest := rests rfl
    refine ⟨fun point => ⟨rests, ?_⟩, ⟨fails, ?_⟩⟩
    · intro isBestToo
      rw [unique isBest isBestToo]
    · intro empty
      have impossible := member isBest
      rw [empty] at impossible
      exact absurd impossible (Set.notMem_empty other)

/-- A forward scan finds the first closing point, and nothing if there is none. -/
theorem scanForward_iff (instructions : List Instruction) (position : Nat) :
    (∀ stop, scanForward instructions position = some stop ↔
        IsLeast (closingPoints instructions position) stop) ∧
      (scanForward instructions position = none ↔ closingPoints instructions position = ∅) :=
  found_iff (fun least => least.1) (fun least too => least.unique too) isLeast_of_scanForward
    closingPoints_eq_empty

/-- A backward scan finds the last opening point, and nothing if there is none. -/
theorem scanBackward_iff (instructions : List Instruction) (position : Nat) :
    (∀ start, scanBackward instructions position = some start ↔
        IsGreatest (openingPoints instructions position) start) ∧
      (scanBackward instructions position = none ↔ openingPoints instructions position = ∅) :=
  found_iff (fun greatest => greatest.1) (fun greatest too => greatest.unique too)
    isGreatest_of_scanBackward openingPoints_eq_empty

/-! ### The counter on the way -/

/-- A forward scan that has passed all points before `here` goes on there with the loop starts that it
has passed and that no loop end passed has closed. -/
theorem scanForward_underway (behind : position < here) (inside : here ≤ instructions.length)
    (passed : ∀ point ∈ closingPoints instructions position, here ≤ point) :
    ∃ depth, (stretch instructions (position + 1) here).count .loopStart =
        (stretch instructions (position + 1) here).count .loopEnd + depth ∧
      scanForward instructions position =
        (firstUnpaired .loopStart .loopEnd depth (instructions.drop here)).map (here + ·) := by
  obtain ⟨length, rfl⟩ := exists_offset_of_lt behind
  have nothing : firstUnpaired .loopStart .loopEnd 0
      ((instructions.drop (position + 1)).take length) = none := by
    cases found : firstUnpaired .loopStart .loopEnd 0
      ((instructions.drop (position + 1)).take length) with
    | none => rfl
    | some offset =>
      have rests : scanForward instructions position = some (position + 1 + offset) := by
        rw [scanForward, firstUnpaired_of_take found]
        rfl
      have late := passed _ (isLeast_of_scanForward rests).1
      have early := firstUnpaired_lt_length found
      rw [List.length_take] at early
      omega
  obtain ⟨depth, counted, onward⟩ := firstUnpaired_passed (by decide) nothing
  rw [take_drop_eq_stretch, Nat.zero_add] at counted
  refine ⟨depth, counted, ?_⟩
  have rest := onward ((instructions.drop (position + 1)).drop length)
  have read : ((instructions.drop (position + 1)).take length).length = length := by
    rw [List.length_take, List.length_drop]
    omega
  rw [List.take_append_drop, List.drop_drop, read] at rest
  rw [scanForward, rest, Option.map_map]
  congr 1
  funext offset
  simp only [Function.comp_apply]
  omega

/-- A backward scan that has passed all points from `here` on goes on before it with the loop ends that
it has passed and that no loop start passed has opened. -/
theorem scanBackward_underway (before : here ≤ min position instructions.length)
    (passed : ∀ point ∈ openingPoints instructions position, point < here) :
    ∃ depth, (stretch instructions here position).count .loopEnd =
        (stretch instructions here position).count .loopStart + depth ∧
      scanBackward instructions position =
        (firstUnpaired .loopEnd .loopStart depth (instructions.take here).reverse).map
          (here - 1 - ·) := by
  have nothing : firstUnpaired .loopEnd .loopStart 0
      ((instructions.take position).reverse.take (min position instructions.length - here)) =
        none := by
    cases found : firstUnpaired .loopEnd .loopStart 0
      ((instructions.take position).reverse.take (min position instructions.length - here)) with
    | none => rfl
    | some offset =>
      have rests : scanBackward instructions position =
          some (min position instructions.length - 1 - offset) := by
        rw [scanBackward, firstUnpaired_of_take found, List.length_take]
        rfl
      have late := passed _ (isGreatest_of_scanBackward rests).1
      have early := firstUnpaired_lt_length found
      rw [List.length_take, List.length_reverse, List.length_take] at early
      omega
  obtain ⟨depth, counted, onward⟩ := firstUnpaired_passed (by decide) nothing
  rw [count_take_reverse _ before, count_take_reverse _ before, Nat.zero_add] at counted
  refine ⟨depth, counted, ?_⟩
  have rest := onward
    ((instructions.take position).reverse.drop (min position instructions.length - here))
  have read : ((instructions.take position).reverse.take
      (min position instructions.length - here)).length = min position instructions.length - here := by
    rw [List.length_take, List.length_reverse, List.length_take]
    omega
  have left : (instructions.take position).take
      (min position instructions.length - (min position instructions.length - here)) =
        instructions.take here := by
    rw [List.take_take]
    congr 1
    omega
  rw [List.take_append_drop, read, List.drop_reverse, List.length_take, left] at rest
  rw [scanBackward, rest, Option.map_map, List.length_take]
  congr 1
  funext offset
  simp only [Function.comp_apply]
  omega

end Points

/-! ### Heights -/

section Heights

variable {instructions : List Instruction} {position point start stop : Nat}

/-- The loop starts before a position, less the loop ends before it. -/
def height (instructions : List Instruction) (position : Nat) : Int :=
  (instructions.take position).count .loopStart - (instructions.take position).count .loopEnd

theorem height_stretch (instructions : List Instruction) (ordered : start ≤ stop) :
    height instructions stop = height instructions start +
      (stretch instructions start stop).count .loopStart -
      (stretch instructions start stop).count .loopEnd := by
  have split : instructions.take stop =
      instructions.take start ++ stretch instructions start stop := by
    conv_lhs => rw [← List.take_append_drop start (instructions.take stop)]
    rw [List.take_take, Nat.min_eq_left ordered, stretch]
  rw [height, height, split, List.count_append, List.count_append]
  omega

theorem height_succ {instruction : Instruction} (here : instructions[position]? = some instruction) :
    height instructions (position + 1) = height instructions position +
      ([instruction].count .loopStart : Nat) - ([instruction].count .loopEnd : Nat) := by
  obtain ⟨inside, rfl⟩ := List.getElem?_eq_some_iff.1 here
  rw [height, height, List.take_succ_eq_append_getElem inside, List.count_append, List.count_append]
  omega

/-- At a closing point the height falls below the one behind the position. -/
theorem mem_closingPoints_iff :
    point ∈ closingPoints instructions position ↔
      position < point ∧ height instructions (point + 1) + 1 = height instructions (position + 1) := by
  refine and_congr_right ?_
  intro behind
  have rise := height_stretch instructions (Nat.succ_le_succ (Nat.le_of_lt behind))
  simp only [Nat.succ_eq_add_one] at rise
  omega

/-- At an opening point the height is below the one of the position. -/
theorem mem_openingPoints_iff :
    point ∈ openingPoints instructions position ↔
      point < min position instructions.length ∧
        height instructions point + 1 = height instructions position := by
  refine and_congr_right ?_
  intro inside
  have rise := height_stretch instructions (show point ≤ position by omega)
  omega

/-- Between a loop start and a loop end the two scans are inverse to each other. -/
theorem scanForward_eq_iff_scanBackward_eq (opens : instructions[start]? = some .loopStart)
    (closes : instructions[stop]? = some .loopEnd) :
    scanForward instructions start = some stop ↔ scanBackward instructions stop = some start := by
  have rise := height_succ opens
  have fall := height_succ closes
  have inside : stop < instructions.length := (List.getElem?_eq_some_iff.1 closes).1
  simp only [List.count_singleton_self, List.count_singleton, beq_iff_eq, reduceCtorEq, if_false]
    at rise fall
  rw [(scanForward_iff instructions start).1, (scanBackward_iff instructions stop).1]
  constructor
  · rintro ⟨member, least⟩
    obtain ⟨behind, level⟩ := mem_closingPoints_iff.1 member
    refine ⟨mem_openingPoints_iff.2 ⟨by omega, by omega⟩, ?_⟩
    intro point other
    obtain ⟨before, levelToo⟩ := mem_openingPoints_iff.1 other
    apply Nat.le_of_not_lt
    intro late
    -- The instruction before a later opening point would have been a closing point.
    obtain ⟨earlier, rfl⟩ : ∃ earlier, point = earlier + 1 := ⟨point - 1, by omega⟩
    have apart : earlier ≠ start := by
      rintro rfl
      omega
    have closing : stop ≤ earlier := least (mem_closingPoints_iff.2 ⟨by omega, by omega⟩)
    omega
  · rintro ⟨member, greatest⟩
    obtain ⟨before, level⟩ := mem_openingPoints_iff.1 member
    refine ⟨mem_closingPoints_iff.2 ⟨by omega, by omega⟩, ?_⟩
    intro point other
    obtain ⟨behind, levelToo⟩ := mem_closingPoints_iff.1 other
    apply Nat.le_of_not_lt
    intro early
    -- The position behind an earlier closing point would have been an opening point.
    have apart : point + 1 ≠ stop := by
      rintro rfl
      omega
    have opening : point + 1 ≤ start := greatest (mem_openingPoints_iff.2 ⟨by omega, by omega⟩)
    omega

end Heights

/-- From any position a forward scan finds the first point of balance behind it, and a backward scan the
last one before it. On the way the depth of a scan is the surplus of the brackets that it has passed. A
loop start and a loop end are found from each other or not at all. -/
theorem scans_find_balance (instructions : List Instruction) :
    (∀ position,
      (∀ stop, scanForward instructions position = some stop ↔
        IsLeast (closingPoints instructions position) stop) ∧
      (scanForward instructions position = none ↔ closingPoints instructions position = ∅)) ∧
    (∀ position,
      (∀ start, scanBackward instructions position = some start ↔
        IsGreatest (openingPoints instructions position) start) ∧
      (scanBackward instructions position = none ↔ openingPoints instructions position = ∅)) ∧
    -- The depth at every place that a scan comes by is a number of brackets still pending.
    (∀ position here, position < here → here ≤ instructions.length →
      (∀ point ∈ closingPoints instructions position, here ≤ point) →
      ∃ depth, (stretch instructions (position + 1) here).count .loopStart =
          (stretch instructions (position + 1) here).count .loopEnd + depth ∧
        scanForward instructions position =
          (firstUnpaired .loopStart .loopEnd depth (instructions.drop here)).map (here + ·)) ∧
    (∀ position here, here ≤ min position instructions.length →
      (∀ point ∈ openingPoints instructions position, point < here) →
      ∃ depth, (stretch instructions here position).count .loopEnd =
          (stretch instructions here position).count .loopStart + depth ∧
        scanBackward instructions position =
          (firstUnpaired .loopEnd .loopStart depth (instructions.take here).reverse).map
            (here - 1 - ·)) ∧
    ∀ start stop, instructions[start]? = some .loopStart → instructions[stop]? = some .loopEnd →
      (scanForward instructions start = some stop ↔ scanBackward instructions stop = some start) := by
  refine ⟨scanForward_iff instructions, scanBackward_iff instructions, ?_, ?_, ?_⟩
  · intro position here behind inside passed
    exact scanForward_underway behind inside passed
  · intro position here before passed
    exact scanBackward_underway before passed
  · intro start stop opens closes
    exact scanForward_eq_iff_scanBackward_eq opens closes

/-- In `)(!())(` the forward scan from the first loop start passes over a loop with one bracket pending,
and the backward scan from the loop end that it finds comes back. -/
theorem scans_find_balance_illNested :
    let instructions : List Instruction :=
      [.loopEnd, .loopStart, .print, .loopStart, .loopEnd, .loopEnd, .loopStart]
    scanBackward instructions 5 = some 1 ∧
      ∃ depth, 1 = 0 + depth ∧ scanForward instructions 1 =
        (firstUnpaired .loopStart .loopEnd depth [.loopEnd, .loopEnd, .loopStart]).map (4 + ·) := by
  intro instructions
  obtain ⟨forward, -, underway, -, inverse⟩ := scans_find_balance instructions
  have found : scanForward instructions 1 = some 5 := rfl
  have least := ((forward 1).1 5).1 found
  have passed (point : Nat) (member : point ∈ closingPoints instructions 1) : 4 ≤ point :=
    Nat.le_of_succ_le (least.2 member)
  exact ⟨(inverse 1 5 rfl rfl).1 found, underway 1 4 (by decide) (by decide) passed⟩

end Crosswire
