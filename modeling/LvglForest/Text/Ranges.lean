import LvglForest.Text.Basic

/-!
# Ranges of code points

The classes of characters are tables of closed ranges of code point numbers, listed in ascending
order. No table holds a surrogate.
-/

namespace LvglForest

/-- Closed ranges of code point numbers. -/
abbrev Ranges := List (Nat × Nat)

/-- Whether a number lies in one of the ranges. -/
def Ranges.contains (ranges : Ranges) (n : Nat) : Bool :=
  ranges.any fun r => r.1 ≤ n && n ≤ r.2

end LvglForest
