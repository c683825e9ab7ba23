
/-!
# Chance

A generator of random words with four words of state, each draw of which is a rotated sum of two
of them, and the first state of which is drawn from a multiplicative generator.  Equal seeds give
equal draws.

A number below a bound is the high half of the product of a random word and the bound.  Words for
which the low half is too high are refused, so that every number is equally likely.
-/

namespace Thoroughfare
namespace Grid

def rotateLeft (x : UInt64) (bits : UInt64) : UInt64 :=
  (x <<< bits) ||| (x >>> (64 - bits))

/-- The step of the generator of seeds. -/
def nextSeedState (state : UInt64) : UInt64 :=
  state * 6364136223846793005 + 11634580027462260723

/-- The half word that a state of the generator of seeds stands for. -/
def seedWord (state : UInt64) : UInt32 :=
  let mixed : UInt32 := (((state >>> 18) ^^^ state) >>> 27).toUInt32
  let turn : UInt32 := (state >>> 59).toUInt32
  (mixed >>> turn) ||| (mixed <<< ((32 - turn) % 32))

/-- Two half words as a word, the lower one first. -/
def joinWords (low high : UInt32) : UInt64 :=
  low.toUInt64 ||| (high.toUInt64 <<< 32)

/-- The state of a generator. -/
structure Generator where
  a : UInt64
  b : UInt64
  c : UInt64
  d : UInt64
deriving DecidableEq, Repr

namespace Generator

/-- The next word of a seed, and the state of the generator of seeds behind it. -/
def seedWord64 (state : UInt64) : UInt64 × UInt64 :=
  let first := nextSeedState state
  let second := nextSeedState first
  (joinWords (seedWord first) (seedWord second), second)

def ofSeed (seed : UInt64) : Generator :=
  let (a, state) := seedWord64 seed
  let (b, state) := seedWord64 state
  let (c, state) := seedWord64 state
  let (d, _) := seedWord64 state
  ⟨a, b, c, d⟩

def next (g : Generator) : UInt64 × Generator :=
  let word := rotateLeft (g.a + g.d) 23 + g.a
  let c := g.c ^^^ g.a
  let d := g.d ^^^ g.b
  (word, ⟨g.a ^^^ d, g.b ^^^ c, c ^^^ (g.b <<< 17), rotateLeft d 45⟩)

/-- The number of random words that are tried for one draw; at least every second one is
accepted. -/
def tries : Nat :=
  1000

/-- A word that begins with a one as long as it is not zero, less one: the greatest low half that
is accepted for a bound. -/
def zone (bound : Nat) : Nat :=
  bound * Nat.pow 2 (63 - Nat.log2 bound) - 1

/-- A random number below a bound, with so many tries. -/
def drawBelow (bound : Nat) : Nat → Generator → Nat × Generator
  | 0, g => (0, g)
  | tries + 1, g =>
      let (word, g) := g.next
      let product := word.toNat * bound
      if product % UInt64.size ≤ zone bound then (product / UInt64.size, g)
      else drawBelow bound tries g

/-- A random number from `least` on and below `bound`. -/
def draw (g : Generator) (least bound : Nat) : Nat × Generator :=
  let (n, g) := drawBelow (bound - least) tries g
  (least + n, g)

end Generator
end Grid
end Thoroughfare
