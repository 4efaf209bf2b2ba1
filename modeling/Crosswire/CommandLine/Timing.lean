/-
Module: Crosswire.CommandLine.Timing
Purpose: The measured times of a run, in words. A duration is told in the largest unit that it reaches,
  with as many decimals as it needs; a rate has one decimal and is told in thousands or millions when
  it reaches them.
Main exports: Timing, Timing.ofNanoseconds
-/

namespace Crosswire.CommandLine

/-- The measured times of a run, already in words. -/
structure Timing where
  /-- How long the run took. -/
  elapsed : String
  /-- How many instructions were executed in a second. -/
  rate : String

namespace Timing

/-- A part of a unit that has this many decimal places, as a decimal fraction without trailing zeros. It
is empty for zero. -/
def fraction (part places : Nat) : String :=
  let digits := Nat.toDigits 10 (Nat.pow 10 places + part)
  match (digits.drop 1).reverse.dropWhile (· == '0') with
  | [] => ""
  | kept => "." ++ String.ofList kept.reverse

/-- A duration in words. -/
def durationText (nanoseconds : Nat) : String :=
  let inUnits (places : Nat) (unit : String) : String :=
    let size := Nat.pow 10 places
    toString (nanoseconds / size) ++ fraction (nanoseconds % size) places ++ unit
  if 1000000000 ≤ nanoseconds then inUnits 9 "s"
  else if 1000000 ≤ nanoseconds then inUnits 6 "ms"
  else if 1000 ≤ nanoseconds then inUnits 3 "µs"
  else inUnits 0 "ns"

/-- A number of instructions in a second, in words. -/
def rateText (steps nanoseconds : Nat) : String :=
  let span := max nanoseconds 1
  let inUnits (unit : Nat) (mark : String) : String :=
    let tenths := (steps * 10000000000 + unit * span / 2) / (unit * span)
    toString (tenths / 10) ++ "." ++ toString (tenths % 10) ++ mark
  if 1000000 * span ≤ steps * 1000000000 then inUnits 1000000 "M"
  else if 1000 * span ≤ steps * 1000000000 then inUnits 1000 "k"
  else inUnits 1 ""

/-- The times of a run of this many instructions and nanoseconds. -/
def ofNanoseconds (steps nanoseconds : Nat) : Timing :=
  ⟨durationText nanoseconds, rateText steps nanoseconds⟩

end Timing

end Crosswire.CommandLine
