/-
Module: Crosswire.Text.Slice
Purpose: Parts of a text between byte positions. A position inside a character cuts nothing out. Between
  the positions where a part of the text begins and ends lies that part.
Main exports: byteCount, takeBytes?, dropBytes?, slice?
-/

namespace Crosswire

/-- The number of bytes of some characters. -/
def byteCount : List Char → Nat
  | [] => 0
  | character :: rest => character.utf8Size + byteCount rest

/-- The characters within the first `count` bytes, if a character ends there. -/
def takeBytes? (count : Nat) : List Char → Option (List Char)
  | [] => if count = 0 then some [] else none
  | character :: rest =>
    if count = 0 then some []
    else if character.utf8Size ≤ count then
      (takeBytes? (count - character.utf8Size) rest).map (character :: ·)
    else none

/-- The characters behind the first `count` bytes, if a character ends there. -/
def dropBytes? (count : Nat) : List Char → Option (List Char)
  | [] => if count = 0 then some [] else none
  | character :: rest =>
    if count = 0 then some (character :: rest)
    else if character.utf8Size ≤ count then dropBytes? (count - character.utf8Size) rest
    else none

/-- The characters from one byte position up to another. -/
def slice? (start stop : Nat) (text : List Char) : Option (List Char) :=
  (takeBytes? stop text).bind (dropBytes? start)

/-- A character has at least one byte. -/
theorem utf8Size_ne_zero (character : Char) : character.utf8Size ≠ 0 :=
  Nat.pos_iff_ne_zero.mp character.utf8Size_pos

theorem byteCount_append (first second : List Char) :
    byteCount (first ++ second) = byteCount first + byteCount second := by
  induction first with
  | nil => exact (Nat.zero_add _).symm
  | cons character rest ih => rw [List.cons_append, byteCount, byteCount, ih, Nat.add_assoc]

/-- The bytes of a first part hold just that part. -/
theorem takeBytes?_byteCount (first rest : List Char) :
    takeBytes? (byteCount first) (first ++ rest) = some first := by
  induction first with
  | nil => cases rest <;> simp [byteCount, takeBytes?]
  | cons character others ih =>
    simp [byteCount, takeBytes?, utf8Size_ne_zero, ih]

/-- Behind the bytes of a first part is the rest. -/
theorem dropBytes?_byteCount (first rest : List Char) :
    dropBytes? (byteCount first) (first ++ rest) = some rest := by
  induction first with
  | nil => cases rest <;> simp [byteCount, dropBytes?]
  | cons character others ih =>
    simp [byteCount, dropBytes?, utf8Size_ne_zero, ih]

/-- Between the ends of its neighbours lies the middle part of a text. -/
theorem slice?_byteCount (first middle rest : List Char) :
    slice? (byteCount first) (byteCount (first ++ middle)) (first ++ middle ++ rest) = some middle := by
  rw [slice?, takeBytes?_byteCount]
  exact dropBytes?_byteCount first middle

end Crosswire
