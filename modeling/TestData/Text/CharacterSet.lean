namespace TestData
namespace Text

/-!
# Sets of characters

A set of characters as a bracketed class describes it: ranges, put together, cut
down and complemented.
-/

/-- A set of characters. -/
inductive CharacterSet where
  | empty
  | range (low high : Char)
  | union (first second : CharacterSet)
  | intersection (first second : CharacterSet)
  | difference (first second : CharacterSet)
  | symmetricDifference (first second : CharacterSet)
  | complement (excluded : CharacterSet)
  deriving DecidableEq, Repr, Inhabited

namespace CharacterSet

/-- The set of a single character. -/
def single (c : Char) : CharacterSet :=
  .range c c

/-- Whether a character is in a set. -/
def contains (c : Char) : CharacterSet → Bool
  | .empty => false
  | .range low high => low ≤ c && c ≤ high
  | .union first second => first.contains c || second.contains c
  | .intersection first second => first.contains c && second.contains c
  | .difference first second => first.contains c && !second.contains c
  | .symmetricDifference first second => first.contains c != second.contains c
  | .complement excluded => !excluded.contains c

/-- A single character is in its own set alone. -/
theorem contains_single (c d : Char) : (single d).contains c = (c == d) := by
  rw [Bool.eq_iff_iff]
  simp only [single, contains, Bool.and_eq_true, decide_eq_true_eq, beq_iff_eq]
  exact ⟨fun both => Char.le_antisymm both.2 both.1,
    fun same => same ▸ ⟨Char.le_refl c, Char.le_refl c⟩⟩

end CharacterSet
end Text
end TestData
