/-
Module: Crosswire.Words
Purpose: Randomness as an endless supply of 32-bit words. A draw consumes words from the front of the
  supply and counts them; what is drawn depends on nothing else, so a fixed supply gives a fixed
  result.
Main exports: Words, Words.cyclic, Words.seeded, Draw, Draw.word, Draw.byte, Draw.coin, Draw.below,
  Draw.pick
-/

namespace Crosswire

/-- An endless supply of words and the number of words already drawn from it. -/
structure Words where
  /-- The word with a given number. -/
  word : Nat → UInt32
  /-- How many words have been drawn. -/
  used : Nat

namespace Words

/-- The supply that repeats a list of words for ever. The empty list supplies zeros. -/
def cyclic (words : List UInt32) : Words where
  word number := words.getD (number % words.length) 0
  used := 0

/-- One round of bit mixing: fold the high bits down and multiply. -/
private def mix (shift factor bits : UInt64) : UInt64 :=
  (bits ^^^ (bits >>> shift)) * factor

/-- A supply spread from a seed. Word number `n` is a scrambled multiple of an odd constant, so every
word can be computed without the ones before it. -/
def seeded (seed : UInt64) : Words where
  word number :=
    let start := seed + UInt64.ofNat (number + 1) * 0x9E3779B97F4A7C15
    let mixed := mix 27 0x94D049BB133111EB (mix 30 0xBF58476D1CE4E5B9 start)
    ((mixed ^^^ (mixed >>> 31)) >>> 32).toUInt32
  used := 0

end Words

/-- A random choice: a function of the supply that also returns the supply left over. -/
abbrev Draw := StateM Words

namespace Draw

/-- The next word. -/
def word : Draw UInt32 :=
  fun words => (words.word words.used, { words with used := words.used + 1 })

/-- A byte, the low eight bits of a word. -/
def byte : Draw UInt8 := do
  return (← word).toUInt8

/-- A fair coin, the top bit of a word. -/
def coin : Draw Bool := do
  return (← word) ≥ 0x80000000

/-- A number below `bound`: the high half of a word times the bound. When the low half is so large
that its missing fraction could carry into the high half, a second word decides the carry. -/
def below (bound : Nat) : Draw Nat := do
  let product := (← word).toNat * bound
  let high := product / 0x100000000
  let low := product % 0x100000000
  if low > 0x100000000 - bound then
    let fraction := (← word).toNat * bound / 0x100000000
    return if low + fraction ≥ 0x100000000 then high + 1 else high
  else
    return high

/-- One element of a nonempty list, each with equal chance. -/
def pick {α : Type} (first : α) (others : List α) : Draw α := do
  return (first :: others).getD (← below (others.length + 1)) first

end Draw

end Crosswire
