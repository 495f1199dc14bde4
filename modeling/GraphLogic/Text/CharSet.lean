/-!
# Sets of characters

A set of characters is a list of closed intervals of code points. The character classes of the
library (letters, blanks, wide characters, …) are all such tables.
-/

namespace GraphLogic

/-- A set of characters, as closed intervals of code points in ascending order. -/
structure CharSet where
  intervals : List (Nat × Nat)

namespace CharSet

def contains (s : CharSet) (c : Char) : Bool :=
  s.intervals.any fun i => i.1 ≤ c.toNat && c.toNat ≤ i.2

theorem contains_iff {s : CharSet} {c : Char} :
    s.contains c = true ↔ ∃ i ∈ s.intervals, i.1 ≤ c.toNat ∧ c.toNat ≤ i.2 := by
  simp [contains]

end CharSet

end GraphLogic
