/-
Module: Crosswire.Sink
Purpose: Where printed characters go. A sink takes the characters of one print at a time and may
  refuse them; either way it returns the sink that takes the next print. Besides the capturing sink
  there is a wrapper that refuses chosen prints before they reach the sink inside.
Imports: Crosswire.Style
Main exports: OutputFailure, Sink, Captured, Refusing
-/
import Crosswire.Style

namespace Crosswire

/-- Why a sink did not take a print. -/
inductive OutputFailure where
  /-- The writer takes no more bytes. -/
  | pipeClosed
  /-- The bytes were taken, but could not be flushed. -/
  | flushFailed
  /-- The print was refused before it reached the sink. -/
  | refused
  /-- The device behind the writer is full. -/
  | deviceFull
  /-- The operating system gave another reason. -/
  | system (reason : String)
deriving DecidableEq, Repr

/-- The wording of an output failure. -/
def OutputFailure.message : OutputFailure → String
  | pipeClosed => "pipe closed"
  | flushFailed => "flush failed"
  | refused => "sink failed"
  | deviceFull => "No space left on device (os error 28)"
  | system reason => reason

/-- A destination of printed characters. -/
class Sink (σ : Type) where
  /-- Take the characters of one print. -/
  write : List StyledChar → σ → Except OutputFailure Unit × σ

/-- A sink that keeps every character and counts the prints. It refuses nothing. -/
structure Captured where
  characters : Array StyledChar
  prints : Nat

namespace Captured

/-- Nothing printed yet. -/
def empty : Captured := ⟨#[], 0⟩

instance : Inhabited Captured := ⟨empty⟩

instance : Sink Captured where
  write characters captured :=
    (.ok (), ⟨captured.characters ++ characters, captured.prints + 1⟩)

/-- The printed text without looks. -/
def text (captured : Captured) : String :=
  String.ofList (captured.characters.toList.map StyledChar.character)

end Captured

/-- A sink that refuses the prints with certain numbers, counted from zero, and passes the others on. A
refused print leaves the sink inside as it was. -/
structure Refusing (σ : Type) where
  sink : σ
  /-- The numbers of the prints to refuse. -/
  numbers : List Nat
  /-- How many prints have come in. -/
  calls : Nat

instance {σ : Type} [Sink σ] : Sink (Refusing σ) where
  write characters refusing :=
    let counted := { refusing with calls := refusing.calls + 1 }
    if refusing.numbers.contains refusing.calls then
      (.error .refused, counted)
    else
      let (result, sink) := Sink.write characters refusing.sink
      (result, { counted with sink })

end Crosswire
