import LvglForest.Text.Basic

/-!
# Decimal digits

How natural numbers and integers are written.
-/

namespace LvglForest.Decimal

/-- The decimal digits of a natural number. -/
def ofNat (n : Nat) : Text := (Nat.toDigits 10 n).map .char

/-- The decimal digits of an integer, after a minus sign if it is negative. -/
def ofInt : Int → Text
  | .ofNat n => ofNat n
  | .negSucc n => .char '-' :: ofNat (n + 1)

end LvglForest.Decimal
