/-
Module: Crosswire.Proofs.ValueArithmetic
Purpose: What the arithmetic of values computes, whatever kinds of value take part. Read as numbers, with
  `true` for one and `false` for nothing, values under additions and decrements add up modulo 2^32: the
  kind of a value never changes the number. Read as bit patterns, with every bit of `true` set, trees of
  nands compute bit by bit, and the logical nand of two truth values is the bitwise one. In both readings
  a value lets a loop run exactly if it does not read as zero.
Imports: Crosswire.Value, Mathlib (the ring of integers)
Main exports: Value.number, Value.isBoolean, Change, Value.changed, Value.number_changed,
  Value.isBoolean_changed, Value.changes_add_up, Value.bits, Value.bits_nand, NandTree,
  NandTree.Swapped, NandTree.nand_tree_masks
-/
import Mathlib.Algebra.Ring.Int.Defs
import Crosswire.Value

namespace Crosswire

namespace Value

/-- Whether a value is a truth value. -/
def isBoolean : Value → Bool
  | integer _ => false
  | boolean _ => true

/-! ### Values as numbers -/

/-- The number that a value stands for: a word for itself, `true` for one and `false` for zero. -/
def number : Value → Int
  | integer word => word.toInt
  | boolean true => 1
  | boolean false => 0

theorem toInt_addend (value : Value) : value.addend.toInt = value.number := by
  rcases value with word | (_ | _)
  · rfl
  · rfl
  · rfl

/-- A number that a value stands for needs no reduction. -/
theorem bmod_number (value : Value) : value.number.bmod 4294967296 = value.number := by
  rw [← toInt_addend]
  exact Int32.toInt_bmod value.addend

theorem number_add (left right : Value) :
    (left.add right).number = (left.number + right.number).bmod 4294967296 := by
  rw [← toInt_addend left, ← toInt_addend right]
  exact Int32.toInt_add left.addend right.addend

/-- A decrement takes one off, also where it changes the kind of the value. -/
theorem number_decrement (value : Value) :
    value.decrement.number = (value.number - 1).bmod 4294967296 := by
  rcases value with word | (_ | _)
  · exact Int32.toInt_sub word 1
  · rfl
  · rfl

theorem isTruthy_iff_number (value : Value) : value.isTruthy = true ↔ value.number ≠ 0 := by
  rcases value with word | (_ | _)
  · rw [isTruthy, bne_iff_ne, number, ← Int32.toInt_zero, Ne, Ne, Int32.toInt_inj]
  · exact ⟨nofun, nofun⟩
  · exact ⟨nofun, fun _ => rfl⟩

end Value

/-! ### Additions and decrements in sequence -/

/-- One change of a value. -/
inductive Change where
  /-- Add an operand on the right. -/
  | addRight (operand : Value)
  /-- Add the value to an operand on its left. -/
  | addLeft (operand : Value)
  | decrement
deriving DecidableEq, Repr

namespace Change

def apply (value : Value) : Change → Value
  | addRight operand => value.add operand
  | addLeft operand => operand.add value
  | decrement => value.decrement

def operand? : Change → Option Value
  | addRight operand => some operand
  | addLeft operand => some operand
  | decrement => none

/-- By how much a change moves the number. -/
def amount : Change → Int
  | addRight operand => operand.number
  | addLeft operand => operand.number
  | decrement => -1

theorem number_apply (change : Change) (value : Value) :
    (change.apply value).number = (value.number + change.amount).bmod 4294967296 := by
  cases change with
  | addRight operand => exact value.number_add operand
  | addLeft operand =>
    rw [Int.add_comm]
    exact operand.number_add value
  | decrement => exact value.number_decrement

/-- Only decrementing `true` leaves a truth value. -/
theorem isBoolean_apply (change : Change) (value : Value) :
    (change.apply value).isBoolean = true ↔ change = .decrement ∧ value = .boolean true := by
  cases change with
  | addRight operand => simp [apply, Value.add, Value.isBoolean]
  | addLeft operand => simp [apply, Value.add, Value.isBoolean]
  | decrement => rcases value with word | (_ | _) <;> simp [apply, Value.decrement, Value.isBoolean]

theorem apply_ne_true (change : Change) (value : Value) : change.apply value ≠ .boolean true := by
  cases change with
  | addRight operand => exact nofun
  | addLeft operand => exact nofun
  | decrement => rcases value with word | (_ | _) <;> exact nofun

/-- The amounts of some changes are what is added less one for each decrement. -/
theorem sum_amount (changes : List Change) :
    (changes.map amount).sum =
      ((changes.filterMap operand?).map Value.number).sum - changes.count .decrement := by
  induction changes with
  | nil => rfl
  | cons change later ih =>
    cases change with
    | addRight operand => simp [amount, operand?, ih, Int.add_sub_assoc]
    | addLeft operand => simp [amount, operand?, ih, Int.add_sub_assoc]
    | decrement =>
      have skipped : (decrement :: later).filterMap operand? = later.filterMap operand? := rfl
      rw [List.map_cons, List.sum_cons, amount, ih, skipped, List.count_cons_self, Int.natCast_add]
      omega

end Change

namespace Value

/-- A value after some changes, the first one made first. -/
def changed (value : Value) (changes : List Change) : Value :=
  changes.foldl Change.apply value

theorem changed_cons (value : Value) (change : Change) (later : List Change) :
    value.changed (change :: later) = (change.apply value).changed later := rfl

/-- Changes add up, with one reduction in the end for all that were made on the way. -/
theorem number_changed (value : Value) (changes : List Change) :
    (value.changed changes).number =
      (value.number + (changes.map Change.amount).sum).bmod 4294967296 := by
  induction changes generalizing value with
  | nil =>
    rw [List.map_nil, List.sum_nil, Int.add_zero, bmod_number]
    rfl
  | cons change later ih =>
    rw [changed_cons, ih, change.number_apply, Int.bmod_add_bmod, List.map_cons, List.sum_cons,
      Int.add_assoc]

/-- A truth value is left only where nothing was done, or `true` was decremented once. -/
theorem isBoolean_changed (value : Value) (changes : List Change) :
    (value.changed changes).isBoolean = true ↔
      (∀ change ∈ changes, change = .decrement) ∧ value.isBoolean = true ∧
        (changes = [] ∨ value = .boolean true ∧ changes.length = 1) := by
  induction changes generalizing value with
  | nil => simp [changed]
  | cons change later ih =>
    -- No change gives `true`, so nothing may follow the first one.
    rw [changed_cons, ih, change.isBoolean_apply]
    constructor
    · rintro ⟨-, ⟨rfl, rfl⟩, rfl | ⟨again, -⟩⟩
      · exact ⟨by simp, rfl, .inr ⟨rfl, rfl⟩⟩
      · exact absurd again (Change.apply_ne_true _ _)
    · rintro ⟨only, -, none | ⟨rfl, single⟩⟩
      · cases none
      · obtain rfl : later = [] := List.eq_nil_of_length_eq_zero (Nat.succ.inj single)
        exact ⟨nofun, ⟨only change (List.mem_singleton_self change), rfl⟩, .inl rfl⟩

/-- Additions and decrements in any order, and of any kinds of value, compute the number that the
integers give, reduced to 32 bits with a sign. The kind says only how the value came about. -/
theorem changes_add_up (start : Value) (changes : List Change) :
    let final := start.changed changes
    let total : Int := start.number + ((changes.filterMap Change.operand?).map number).sum -
      changes.count .decrement
    final.number = total.bmod 4294967296 ∧
    (final.isBoolean = true ↔
      (∀ change ∈ changes, change = .decrement) ∧ start.isBoolean = true ∧
        (changes = [] ∨ start = .boolean true ∧ changes.length = 1)) ∧
    (final.isTruthy = true ↔ total.bmod 4294967296 ≠ 0) := by
  intro final total
  have computed : final.number = total.bmod 4294967296 := by
    rw [number_changed, Change.sum_amount, ← Int.add_sub_assoc]
  refine ⟨computed, start.isBoolean_changed changes, ?_⟩
  rw [isTruthy_iff_number, computed]

/-! ### Values as bit patterns -/

/-- The bits that a value stands for: a word for its own, `true` for all and `false` for none. -/
def bits : Value → BitVec 32
  | integer word => word.toBitVec
  | boolean true => BitVec.allOnes 32
  | boolean false => 0

theorem toBitVec_mask (value : Value) : value.mask.toBitVec = value.bits := by
  rcases value with word | (_ | _)
  · rfl
  · rfl
  · rfl

/-- The logical nand of truth values has the bits of the bitwise one. -/
theorem bits_nand (left right : Value) :
    (left.nand right).bits = ~~~(left.bits &&& right.bits) := by
  rw [← toBitVec_mask left, ← toBitVec_mask right, ← Int32.toBitVec_and, ← Int32.toBitVec_not]
  rcases left with word | (_ | _) <;> rcases right with other | (_ | _) <;> rfl

theorem isBoolean_nand (left right : Value) :
    (left.nand right).isBoolean = (left.isBoolean && right.isBoolean) := by
  cases left <;> cases right <;> rfl

theorem nand_comm (left right : Value) : left.nand right = right.nand left := by
  cases left <;> cases right <;> simp [nand, Int32.and_comm, Bool.and_comm]

theorem isTruthy_iff_bits (value : Value) : value.isTruthy = true ↔ value.bits ≠ 0 := by
  rcases value with word | (_ | _)
  · rw [isTruthy, bne_iff_ne, bits, Ne, Ne, ← Int32.toBitVec_inj]
    rfl
  · exact ⟨nofun, fun some => absurd rfl some⟩
  · exact ⟨fun _ => by decide, fun _ => rfl⟩

end Value

/-! ### Trees of nands -/

/-- An expression made of nands. -/
inductive NandTree where
  | leaf (operand : Value)
  | nand (left right : NandTree)
deriving DecidableEq, Repr

namespace NandTree

/-- What a tree evaluates to, as values. -/
def value : NandTree → Value
  | leaf operand => operand
  | nand left right => left.value.nand right.value

/-- What a tree evaluates to, as bit patterns. -/
def bits : NandTree → BitVec 32
  | leaf operand => operand.bits
  | nand left right => ~~~(left.bits &&& right.bits)

def leaves : NandTree → List Value
  | leaf operand => [operand]
  | nand left right => left.leaves ++ right.leaves

/-- The second tree is the first one with the operands exchanged at some of the nodes. -/
inductive Swapped : NandTree → NandTree → Prop where
  | leaf (operand : Value) : Swapped (leaf operand) (leaf operand)
  | kept {left left' right right' : NandTree} (first : Swapped left left')
      (second : Swapped right right') : Swapped (nand left right) (nand left' right')
  | exchanged {left left' right right' : NandTree} (first : Swapped left left')
      (second : Swapped right right') : Swapped (nand left right) (nand right' left')

theorem bits_value (tree : NandTree) : tree.value.bits = tree.bits := by
  induction tree with
  | leaf operand => rfl
  | nand left right ihLeft ihRight => rw [value, Value.bits_nand, ihLeft, ihRight, bits]

/-- One word among the leaves is enough to make every node above it a word. -/
theorem isBoolean_value (tree : NandTree) :
    tree.value.isBoolean = true ↔ ∀ leaf ∈ tree.leaves, leaf.isBoolean = true := by
  induction tree with
  | leaf operand => simp [value, leaves]
  | nand left right ihLeft ihRight =>
    rw [value, Value.isBoolean_nand, Bool.and_eq_true_iff, ihLeft, ihRight, leaves,
      List.forall_mem_append]

theorem Swapped.value_eq {tree other : NandTree} (swapped : Swapped tree other) :
    other.value = tree.value := by
  induction swapped with
  | leaf operand => rfl
  | kept first second ihFirst ihSecond => rw [value, value, ihFirst, ihSecond]
  | exchanged first second ihFirst ihSecond =>
    rw [value, value, ihFirst, ihSecond, Value.nand_comm]

/-- A tree of nands evaluates bit by bit, whatever kinds of value its leaves have and in whatever order
its nodes name their operands. Its value is a truth value if it is made of nothing else. -/
theorem nand_tree_masks (tree : NandTree) :
    tree.value.bits = tree.bits ∧
    (tree.value.isBoolean = true ↔ ∀ leaf ∈ tree.leaves, leaf.isBoolean = true) ∧
    (∀ other, tree.Swapped other → other.value = tree.value) ∧
    (tree.value.isTruthy = true ↔ tree.value.bits ≠ 0) := by
  refine ⟨tree.bits_value, tree.isBoolean_value, ?_, tree.value.isTruthy_iff_bits⟩
  intro other swapped
  exact swapped.value_eq

end NandTree

end Crosswire
