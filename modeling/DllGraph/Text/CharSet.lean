/-!
# Sets of Characters

A set of characters as a list of ranges of code points, both ends included. The character data of
this library is written down as such sets.
-/

namespace DllGraph.Text

/-- A set of characters, given by ranges of code points with both ends included. -/
structure CharSet where
  ranges : List (Nat × Nat)

/-- Whether a character lies in one of the ranges. -/
def CharSet.contains (s : CharSet) (c : Char) : Bool :=
  s.ranges.any fun r => decide (r.1 ≤ c.toNat) && decide (c.toNat ≤ r.2)

/-- Membership is membership in some range. -/
theorem CharSet.contains_iff {s : CharSet} {c : Char} :
    s.contains c = true ↔ ∃ r ∈ s.ranges, r.1 ≤ c.toNat ∧ c.toNat ≤ r.2 := by
  simp [CharSet.contains]

end DllGraph.Text
