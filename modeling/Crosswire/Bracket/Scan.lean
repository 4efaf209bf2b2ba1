/-
Module: Crosswire.Bracket.Scan
Purpose: Finding the partner of a loop bracket by scanning away from it and counting depth. One
  counting function serves both directions: a backward scan is a forward scan over the reversed
  instructions with the two brackets exchanged.
Imports: Crosswire.Program
Main exports: Direction, firstUnpaired, scanForward, scanBackward
-/
import Crosswire.Program

namespace Crosswire

/-- The two ways of scanning for a partner. -/
inductive Direction where
  /-- From a loop start towards its end. -/
  | forward
  /-- From a loop end back to its start. -/
  | backward
deriving DecidableEq, Repr

/-- The word for a direction in messages. -/
def Direction.text : Direction → String
  | forward => "forward"
  | backward => "backward"

/-- The offset of the first `closing` that no `opening` before it, nor one of the `depth` openings
still pending, accounts for. -/
def firstUnpaired (opening closing : Instruction) : Nat → List Instruction → Option Nat
  | _, [] => none
  | depth, instruction :: rest =>
    if instruction = opening then
      (firstUnpaired opening closing (depth + 1) rest).map (· + 1)
    else if instruction = closing then
      match depth with
      | 0 => some 0
      | outer + 1 => (firstUnpaired opening closing outer rest).map (· + 1)
    else
      (firstUnpaired opening closing depth rest).map (· + 1)

/-- The position of the loop end that closes a loop start standing at `position`. Any position may be
asked for: the scan looks only at what follows it. -/
def scanForward (instructions : List Instruction) (position : Nat) : Option Nat :=
  (firstUnpaired .loopStart .loopEnd 0 (instructions.drop (position + 1))).map (position + 1 + ·)

/-- The position of the loop start that opens a loop end standing at `position`. The scan looks only
at what precedes it, and a position past the end sees the whole list. -/
def scanBackward (instructions : List Instruction) (position : Nat) : Option Nat :=
  let before := instructions.take position
  (firstUnpaired .loopEnd .loopStart 0 before.reverse).map (before.length - 1 - ·)

/-- The scan in a given direction. -/
def scan (direction : Direction) (instructions : List Instruction) (position : Nat) : Option Nat :=
  match direction with
  | .forward => scanForward instructions position
  | .backward => scanBackward instructions position

/-- What a scan finds is inside the scanned instructions. -/
theorem firstUnpaired_lt_length {opening closing : Instruction} {depth offset : Nat}
    {instructions : List Instruction}
    (found : firstUnpaired opening closing depth instructions = some offset) :
    offset < instructions.length := by
  induction instructions generalizing depth offset with
  | nil => simp [firstUnpaired] at found
  | cons instruction rest ih =>
    have step {inner : Nat}
        (deeper : (firstUnpaired opening closing inner rest).map (· + 1) = some offset) :
        offset < (instruction :: rest).length := by
      obtain ⟨earlier, here, rfl⟩ := Option.map_eq_some_iff.1 deeper
      have := ih here
      simp only [List.length_cons]
      omega
    unfold firstUnpaired at found
    split at found
    · exact step found
    · split at found
      · split at found
        · cases found
          simp
        · exact step found
      · exact step found

end Crosswire
