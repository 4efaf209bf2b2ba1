/-
Module: Crosswire.Proofs.CyclicRotation
Purpose: Rotations of a level form a cyclic group. A rotation moves the elements of its level round by one
  place, forwards or backwards, so a sequence of rotations moves them by the surplus of the ones over the
  others, and only the residue of the surplus modulo the number of elements shows. The two levels keep out
  of each other's way: moving the stacks round leaves every stack as it is, and moving the values round
  changes the top stack alone.
Imports: Crosswire.Proofs.PrivateFrames, Mathlib (cyclic rotation of lists, congruences of integers)
Main exports: shift, shift_shift, shift_congr, rotateOnce_eq_shift, Stacks.size, Stacks.Shifted,
  Stacks.Shifted.trans, Stacks.Shifted.unique, State.shifted_performAll, State.rotations_cyclic
-/
import Mathlib.Data.List.Rotate
import Mathlib.Data.Int.ModEq
import Crosswire.Proofs.PrivateFrames

namespace Crosswire

/-! ### Moving round -/

section Shift

variable {α : Type}

/-- A sequence moved round by a number of places: the elements that lie that far from the front come to
the front, and those before them follow at the end. Negative numbers move the other way. -/
def shift (places : Int) (elements : List α) : List α :=
  elements.rotate (places % elements.length).toNat

@[simp] theorem length_shift (places : Int) (elements : List α) :
    (shift places elements).length = elements.length :=
  List.length_rotate elements _

/-- Only the residue modulo the number of elements shows. -/
theorem shift_congr {places others : Int} {elements : List α}
    (same : places ≡ others [ZMOD elements.length]) : shift places elements = shift others elements := by
  unfold shift
  rw [same]

theorem shift_natCast (count : Nat) (elements : List α) :
    shift count elements = elements.rotate count := by
  unfold shift
  rw [← Int.natCast_emod, Int.toNat_natCast, List.rotate_mod]

theorem shift_zero (elements : List α) : shift 0 elements = elements := by
  rw [← Int.natCast_zero, shift_natCast, List.rotate_zero]

theorem shift_nil (places : Int) : shift places ([] : List α) = [] :=
  List.rotate_nil _

/-- Every number of places has the residue of one that moves forwards. -/
theorem exists_natCast_modEq (places : Int) {elements : List α} (filled : elements ≠ []) :
    ∃ count : Nat, places ≡ count [ZMOD elements.length] := by
  have positive : (elements.length : Int) ≠ 0 := by simpa using filled
  refine ⟨(places % elements.length).toNat, ?_⟩
  rw [Int.toNat_of_nonneg (Int.emod_nonneg places positive)]
  exact (Int.mod_modEq places _).symm

/-- Moving round twice is moving round by the sum. -/
theorem shift_shift (first second : Int) (elements : List α) :
    shift second (shift first elements) = shift (first + second) elements := by
  by_cases empty : elements = []
  · rw [empty, shift_nil, shift_nil, shift_nil]
  · obtain ⟨forth, same⟩ := exists_natCast_modEq first empty
    obtain ⟨again, same'⟩ := exists_natCast_modEq second empty
    have sum : first + second ≡ (forth + again : Nat) [ZMOD elements.length] := by
      rw [Int.natCast_add]
      exact same.add same'
    -- The second move is reduced by the length of what the first one leaves.
    have sameThere : second ≡ again [ZMOD (shift first elements).length] := by
      rw [length_shift]
      exact same'
    rw [shift_congr sameThere, shift_natCast, shift_congr same, shift_natCast, shift_congr sum,
      shift_natCast, List.rotate_rotate]

end Shift

/-- By how many places a rotation moves a sequence round. -/
def Rotation.places : Rotation → Int
  | .left => 1
  | .right => -1

/-- One rotation moves by one place. -/
theorem rotateOnce_eq_shift {α : Type} (rotation : Rotation) (elements : List α) :
    rotateOnce rotation elements = shift rotation.places elements := by
  have left (first : α) (rest : List α) : shift 1 (first :: rest) = rest ++ [first] := by
    rw [← Int.natCast_one, shift_natCast, List.rotate_cons_succ, List.rotate_zero]
  cases rotation with
  | left =>
    cases elements with
    | nil => exact (shift_nil 1).symm
    | cons first rest => exact (left first rest).symm
  | right =>
    -- What a rotation to the right gives is known by where a rotation to the left takes it.
    cases elements using List.reverseRecOn with
    | nil => exact (shift_nil (-1)).symm
    | append_singleton front last =>
      have rotated : rotateOnce .right (front ++ [last]) = last :: front := by
        simp only [rotateOnce, List.getLast?_concat, List.dropLast_concat]
      rw [rotated, ← left last front, Rotation.places, shift_shift, Int.add_right_neg, shift_zero]

example : rotateOnce .right ['a', 'b', 'c'] = shift (-1) ['a', 'b', 'c'] ∧
    shift (-1) ['a', 'b', 'c'] = ['c', 'a', 'b'] := by
  decide

namespace Stacks

/-- How many elements a level has. -/
def size (area : Stacks) : Level → Nat
  | .outer => area.depth
  | .inner => area.top.length

/-- The second data area is the first one with a level moved round: with the stacks in another order, and
each of them as it was, or with the values of the top stack in another order, and no other stack
touched. -/
def Shifted (before : Stacks) (level : Level) (places : Int) (after : Stacks) : Prop :=
  match level with
  | .outer => after.toList = shift places before.toList
  | .inner => after.toList = shift places before.top :: before.below

theorem shifted_rotate (area : Stacks) (level : Level) (rotation : Rotation) :
    area.Shifted level rotation.places (area.rotate level rotation) := by
  cases level with
  | outer => exact (area.toList_rotate_outer rotation).trans (rotateOnce_eq_shift rotation _)
  | inner => exact congrArg (· :: area.below) (rotateOnce_eq_shift rotation area.top)

namespace Shifted

variable {before between after other : Stacks} {level : Level} {places places' : Int}

theorem refl (area : Stacks) (level : Level) : area.Shifted level 0 area := by
  cases level with
  | outer => exact (shift_zero area.toList).symm
  | inner => exact congrArg (· :: area.below) (shift_zero area.top).symm

theorem trans (first : before.Shifted level places between)
    (second : between.Shifted level places' after) :
    before.Shifted level (places + places') after := by
  cases level with
  | outer =>
    calc
      after.toList = shift places' between.toList := second
      _ = shift places' (shift places before.toList) := congrArg (shift places') first
      _ = shift (places + places') before.toList := shift_shift places places' before.toList
  | inner =>
    obtain ⟨top, below⟩ := List.cons.inj first
    have movedAgain : after.toList = shift places' between.top :: between.below := second
    rw [top, below, shift_shift] at movedAgain
    exact movedAgain

/-- What a level is moved round by says where everything is. -/
theorem unique (first : before.Shifted level places after)
    (second : before.Shifted level places other) : after = other := by
  apply eq_of_toList_eq
  cases level with
  | outer => exact Eq.trans first (Eq.symm second)
  | inner => exact Eq.trans first (Eq.symm second)

theorem congr (shifted : before.Shifted level places after)
    (same : places ≡ places' [ZMOD before.size level]) : before.Shifted level places' after := by
  cases level with
  | outer =>
    have residue : places ≡ places' [ZMOD before.toList.length] := by
      rw [length_toList]
      exact same
    exact Eq.trans shifted (shift_congr residue)
  | inner => exact Eq.trans shifted (congrArg (· :: before.below) (shift_congr same))

end Shifted

end Stacks

namespace State

/-- Rotations of one level in sequence move it round by the sum of what each of them moves it by, and do
nothing else. -/
theorem shifted_performAll (state : State) (level : Level) (turns : List Rotation) :
    let turned := (state.performAll (turns.map (.rotate level))).2
    state.area.Shifted level (turns.map Rotation.places).sum turned.area ∧
      turned = { state with area := turned.area } := by
  induction turns generalizing state with
  | nil => exact ⟨.refl state.area level, rfl⟩
  | cons rotation later ih =>
    obtain ⟨shifted, frame⟩ := ih (state.rotate level rotation)
    exact ⟨(state.area.shifted_rotate level rotation).trans shifted, frame⟩

/-- Rotations whose moves cancel out lead back to the state that they started from. -/
theorem performAll_of_sum_modEq_zero (state : State) (level : Level) (turns : List Rotation)
    (cancels : (turns.map Rotation.places).sum ≡ 0 [ZMOD state.area.size level]) :
    (state.performAll (turns.map (.rotate level))).2 = state := by
  obtain ⟨shifted, frame⟩ := state.shifted_performAll level turns
  have same := (shifted.congr cancels).unique (.refl state.area level)
  rw [frame, same]

theorem sum_places_replicate (rotation : Rotation) (count : Nat) :
    ((List.replicate count rotation).map Rotation.places).sum = count * rotation.places := by
  rw [List.map_replicate, List.sum_replicate_int]

/-- The rotations of a level act on the states as a cyclic group does. The two ways of rotating undo each
other, a number of rotations the same way moves the level round by the residue of that number modulo the
size of the level, and any sequence of rotations moves it by what the one way has over the other. Nothing
but the order of the level changes. -/
theorem rotations_cyclic (state : State) (level : Level) :
    (state.rotate level .right).rotate level .left = state ∧
    (state.rotate level .left).rotate level .right = state ∧
    (∀ (rotation : Rotation) (count : Nat),
      let turned := (state.performAll (List.replicate count (.rotate level rotation))).2
      state.area.Shifted level ((count % state.area.size level : Nat) * rotation.places) turned.area ∧
        turned = { state with area := turned.area }) ∧
    (∀ rotation : Rotation,
      (state.performAll (List.replicate (state.area.size level) (.rotate level rotation))).2 = state) ∧
    ∀ turns : List Rotation,
      let turned := (state.performAll (turns.map (.rotate level))).2
      state.area.Shifted level (turns.map Rotation.places).sum turned.area ∧
        turned = { state with area := turned.area } := by
  refine ⟨?_, ?_, ?_, ?_, ?_⟩
  · exact state.performAll_of_sum_modEq_zero level [.right, .left] rfl
  · exact state.performAll_of_sum_modEq_zero level [.left, .right] rfl
  · intro rotation count
    rw [← List.map_replicate]
    obtain ⟨shifted, frame⟩ := state.shifted_performAll level (List.replicate count rotation)
    refine ⟨shifted.congr ?_, frame⟩
    rw [sum_places_replicate, Int.natCast_mod]
    exact (Int.mod_modEq count _).symm.mul_right _
  · intro rotation
    rw [← List.map_replicate]
    apply performAll_of_sum_modEq_zero
    rw [sum_places_replicate]
    exact Int.modEq_zero_iff_dvd.2 (Int.dvd_mul_right _ _)
  · intro turns
    exact state.shifted_performAll level turns

end State

end Crosswire
