/-!
# Tables of code points

A class of characters is listed as inclusive ranges of code points.
-/

namespace CodeMetrics

namespace Text

/-- A class of code points, as inclusive ranges. -/
abbrev RangeTable := List (Nat × Nat)

/-- The code point lies in one of the ranges. -/
def RangeTable.covers (table : RangeTable) (code : Nat) : Bool :=
  table.any fun range => range.1 ≤ code && code ≤ range.2

theorem RangeTable.covers_iff (table : RangeTable) (code : Nat) :
    table.covers code = true ↔ ∃ range ∈ table, range.1 ≤ code ∧ code ≤ range.2 := by
  simp [RangeTable.covers]

end Text

end CodeMetrics
