/-
Module: Crosswire.Bracket.Pairing
Purpose: Pairing all loop brackets of a program in one pass, and choosing between that table and the
  scans when a jump is taken. The pass keeps the loop starts that are still open; a loop end closes
  the newest of them. Brackets that find no partner stay unpaired in the table.
Imports: Crosswire.Bracket.Scan
Main exports: Pairing, Pairing.ofProgram, Pairing.target?, Resolver, Resolver.resolve
-/
import Crosswire.Bracket.Scan

namespace Crosswire

/-- The partner of every bracket of a program, by position. -/
structure Pairing where
  partners : Array (Option Nat)
deriving DecidableEq

namespace Pairing

/-- Record two positions as partners of each other. -/
def pair (pairing : Pairing) (start stop : Nat) : Pairing :=
  ⟨(pairing.partners.setIfInBounds start (some stop)).setIfInBounds stop (some start)⟩

/-- Pair the brackets from `position` on, given the positions of the loop starts still open, newest
first. -/
def pairFrom (position : Nat) (opens : List Nat) (pairing : Pairing) : List Instruction → Pairing
  | [] => pairing
  | .loopStart :: rest => pairFrom (position + 1) (position :: opens) pairing rest
  | .loopEnd :: rest =>
    match opens with
    | start :: older => pairFrom (position + 1) older (pairing.pair start position) rest
    | [] => pairFrom (position + 1) [] pairing rest
  | _ :: rest => pairFrom (position + 1) opens pairing rest

/-- The pairing of a program's brackets. -/
def ofProgram (program : Program) : Pairing :=
  pairFrom 0 [] ⟨Array.replicate program.length none⟩ program.instructions

/-- The partner of the bracket at a position, if it has one. -/
def target? (pairing : Pairing) (position : Nat) : Option Nat :=
  (pairing.partners[position]?).join

end Pairing

/-- How partners are found when a jump is taken. -/
inductive Resolver where
  /-- Scan the program at every jump. -/
  | scanning
  /-- Look the partner up in a table made once. -/
  | paired (pairing : Pairing)
deriving DecidableEq

namespace Resolver

/-- The resolver of a program, with a table if jumps are to be cached. -/
def ofProgram (program : Program) (cached : Bool) : Resolver :=
  if cached then .paired (Pairing.ofProgram program) else .scanning

/-- The target of a jump from a position. The table holds one partner for each position, so it does
not need the direction. -/
def resolve (resolver : Resolver) (program : Program) (position : Nat) (direction : Direction) :
    Option Nat :=
  match resolver with
  | scanning => scan direction program.instructions position
  | paired pairing => pairing.target? position

end Resolver

end Crosswire
