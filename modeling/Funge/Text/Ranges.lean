/-
  Classes of characters by ranges of their numbers.

  A class is a list of ranges, each with its first and its last number, both belonging to it.
  Whether a character is of the class is then a test against each range (`inRanges_iff`).
-/

namespace Funge.Text

/-- Whether a character's number lies in one of some ranges. -/
def inRanges (ranges : List (Nat × Nat)) (c : Char) : Bool :=
  ranges.any fun r => r.1 ≤ c.toNat && c.toNat ≤ r.2

theorem inRanges_iff {ranges : List (Nat × Nat)} {c : Char} :
    inRanges ranges c = true ↔ ∃ r ∈ ranges, r.1 ≤ c.toNat ∧ c.toNat ≤ r.2 := by
  simp [inRanges]

end Funge.Text
