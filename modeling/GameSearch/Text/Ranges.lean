/-!
# Sets of characters as ranges

A character class of a standard is a list of inclusive code point ranges in ascending order.
-/

namespace GameSearch.Text

/-- Whether a code point lies in one of the inclusive `ranges`. -/
def inRanges (ranges : List (Nat × Nat)) (code : Nat) : Bool :=
  ranges.any fun range => range.1 ≤ code && code ≤ range.2

theorem inRanges_iff {ranges : List (Nat × Nat)} {code : Nat} :
    inRanges ranges code = true ↔
      ∃ range ∈ ranges, range.1 ≤ code ∧ code ≤ range.2 := by
  simp [inRanges]

end GameSearch.Text
