namespace TestData

/-!
# Random numbers

A random number is drawn from a generator, below a bound.  What is drawn may depend on all
draws before, and where a generator stands is told by their bounds.  Nothing is known of a
generator but that its draws are in range, and that they are the same after the same draws.

Settings name a generator by a seed.  Such a generator counts up a single word, and mixes
the bits of the count for each draw.
-/

/-- A reproducible source of numbers. -/
structure Generator where
  /-- The number drawn below a bound, given the bounds of the draws before, the latest first. -/
  draw : List Nat → Nat → Nat
  draw_lt (past : List Nat) {bound : Nat} : 0 < bound → draw past bound < bound

namespace Generator

/-- The bits of a word, mixed. -/
def mix (word : UInt64) : UInt64 :=
  let first := (word ^^^ (word >>> 30)) * 0xBF58476D1CE4E5B9
  let second := (first ^^^ (first >>> 27)) * 0x94D049BB133111EB
  second ^^^ (second >>> 31)

/-- The generator that starts from a seed. -/
def ofSeed (seed : UInt64) : Generator where
  draw past bound :=
    (mix (seed + UInt64.ofNat (past.length + 1) * 0x9E3779B97F4A7C15)).toNat % bound
  draw_lt _ _ positive := Nat.mod_lt _ positive

instance : Inhabited Generator := ⟨ofSeed 0⟩

end Generator
end TestData
