import LvglForest.Text.Ranges

/-!
# Digits

The decimal digits of every script come in runs of ten, from zero to nine, so a table of the zeros
gives the value of each. Superscript, subscript and enclosed digits count as digits of a name, but
have no decimal value.
-/

namespace LvglForest

/-- The zeros of the scripts that write decimal numbers. -/
def decimalZeros : List Nat :=
  [48, 1632, 1776, 1984, 2406, 2534, 2662, 2790, 2918, 3046, 3174, 3302, 3430, 3558, 3664, 3792,
   3872, 4160, 4240, 6112, 6160, 6470, 6608, 6784, 6800, 6992, 7088, 7232, 7248, 42528, 43216,
   43264, 43472, 43504, 43600, 44016, 65296, 66720, 68912, 69734, 69872, 69942, 70096, 70384, 70736,
   70864, 71248, 71360, 71472, 71904, 72016, 72784, 73040, 73120, 92768, 92864, 93008, 120782,
   120792, 120802, 120812, 120822, 123200, 123632, 125264, 130032]

/-- Digits without a decimal value. -/
def undecimalDigitRanges : Ranges :=
  [(178, 179), (185, 185), (4969, 4977), (6618, 6618), (8304, 8304), (8308, 8313), (8320, 8329),
   (9312, 9320), (9332, 9340), (9352, 9360), (9450, 9450), (9461, 9469), (9471, 9471),
   (10102, 10110), (10112, 10120), (10122, 10130), (68160, 68163), (69216, 69224), (69714, 69722),
   (127232, 127242)]

namespace CodePoint

/-- The value of a decimal digit of any script. -/
def decimalValue? (p : CodePoint) : Option Nat :=
  (decimalZeros.find? fun start => start ≤ p.value && p.value < start + 10).map (p.value - ·)

/-- A decimal digit of any script. -/
def isDecimal (p : CodePoint) : Bool := p.decimalValue?.isSome

/-- A digit, decimal or not. -/
def isDigit (p : CodePoint) : Bool := p.isDecimal || undecimalDigitRanges.contains p.value

end CodePoint

end LvglForest
