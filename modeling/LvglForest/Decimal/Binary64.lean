import LvglForest.Decimal.Digits

/-!
# Binary floating point

The numbers of the 64-bit binary format, kept as a sign, a mantissa and an exponent of two. A
decimal is read as the nearest of them, of two equally near ones the even one. A number is written
with the fewest digits that read back as the same number: positionally from `0.0001` on and below
`10^16`, otherwise with an exponent of ten.
-/

namespace LvglForest

/-- A number `± mantissa * 2^exponent`, an infinity, or the value that is no number. The mantissa is
below `2^53`, and not below `2^52` unless the exponent is `-1074`. -/
inductive Binary64 where
  | finite (negative : Bool) (mantissa : Nat) (exponent : Int)
  | infinity (negative : Bool)
  | nan
  deriving DecidableEq

namespace Binary64

/-- The least exponent. -/
def minExponent : Int := -1074

/-- The greatest exponent. -/
def maxExponent : Int := 971

/-- Zero. -/
def zero (negative : Bool) : Binary64 := .finite negative 0 minExponent

/-- A power of two. -/
def twoTo (n : Nat) : Nat := Nat.pow 2 n

/-- A power of ten. -/
def tenTo (n : Nat) : Nat := Nat.pow 10 n

/-- The fraction `num / den * 2^(-e)` as a numerator and a denominator. -/
def scaled (num den : Nat) (e : Int) : Nat × Nat :=
  if 0 ≤ e then (num, den * twoTo e.toNat) else (num * twoTo (-e).toNat, den)

/-- The quotient of two numbers rounded to the nearest, a half to the even neighbour. -/
def roundDiv (num den : Nat) : Nat :=
  let q := num / den
  let r := num % den
  if den < 2 * r ∨ (den = 2 * r ∧ q % 2 = 1) then q + 1 else q

/-- The number nearest to a positive fraction. -/
def ofRatio (negative : Bool) (num den : Nat) : Binary64 :=
  let guess : Int := (num.log2 : Int) - den.log2 - 53
  let (n, d) := scaled num den guess
  let e := max (if twoTo 53 ≤ n / d then guess + 1 else guess) minExponent
  let (n, d) := scaled num den e
  let q := roundDiv n d
  let (q, e) := if q = twoTo 53 then (twoTo 52, e + 1) else (q, e)
  if maxExponent < e then .infinity negative else .finite negative q e

/-- The number nearest to `± digits * 10^exponent`. -/
def ofDecimal (negative : Bool) (digits : Nat) (exponent : Int) : Binary64 :=
  let magnitude := exponent + (Decimal.ofNat digits).length
  if digits = 0 ∨ magnitude < -330 then zero negative
  else if 310 < magnitude then .infinity negative
  else if 0 ≤ exponent then ofRatio negative (digits * tenTo exponent.toNat) 1
  else ofRatio negative digits (tenTo (-exponent).toNat)

/-- Neither zero is true, every other number is. -/
def isTrue : Binary64 → Bool
  | .finite _ m _ => m ≠ 0
  | _ => true

/-- The number without its fraction. -/
def truncate? : Binary64 → Option Int
  | .finite negative m e =>
    let n := if 0 ≤ e then m * twoTo e.toNat else m / twoTo (-e).toNat
    some (if negative then -(n : Int) else n)
  | _ => none

/-! ## Shortest decimals -/

/-- The number of digits before the decimal point of a positive fraction, negative for zeros after
the point. -/
def pointOf (num den : Nat) : Int :=
  if den ≤ num then (Decimal.ofNat (num / den)).length
  else 1 - (((List.range 400).find? fun j => den ≤ num * tenTo j).getD 0 : Nat)

/-- The decimals `coefficient * 10^exponent` next to a fraction on the grid of an exponent, the
nearer one first. -/
def neighbours (num den : Nat) (exponent : Int) : List Nat :=
  let (n, d) :=
    if 0 ≤ exponent then (num, den * tenTo exponent.toNat) else (num * tenTo (-exponent).toNat, den)
  let q := n / d
  let nearest := roundDiv n d
  if n % d = 0 then [q] else if nearest = q then [q, q + 1] else [q + 1, q]

/-- The fewest digits that read back as the number, with the exponent of the last of them. -/
def shortest (mantissa : Nat) (exponent : Int) : Nat × Int :=
  let (num, den) := scaled mantissa 1 (-exponent)
  let point := pointOf num den
  let hits := (List.range 17).filterMap fun k =>
    let grid := point - (k + 1 : Nat)
    ((neighbours num den grid).find? fun c =>
      ofDecimal false c grid = .finite false mantissa exponent).map (·, grid)
  hits.headD (0, 0)

/-- A digit string without the zeros that end it. -/
def dropFinalZeros (digits : Text) : Text :=
  (digits.reverse.dropWhile (· = .char '0')).reverse

/-- Digits with the decimal point after the first `point` of them. -/
def layOut (digits : Text) (point : Int) : Text :=
  let zeros (n : Nat) : Text := List.replicate n (.char '0')
  if -4 < point ∧ point ≤ 16 then
    if point ≤ 0 then "0." ++ zeros (-point).toNat ++ digits
    else if point.toNat < digits.length then
      digits.take point.toNat ++ "." ++ digits.drop point.toNat
    else digits ++ zeros (point.toNat - digits.length) ++ ".0"
  else
    let tail : Text := if digits.length = 1 then [] else .char '.' :: digits.drop 1
    let e := point - 1
    let size := Decimal.ofNat e.natAbs
    digits.take 1 ++ tail ++ (if e < 0 then "e-" else "e+") ++ zeros (2 - size.length) ++ size

/-- The shortest decimal of a number. -/
def write : Binary64 → Text
  | .nan => "nan"
  | .infinity false => "inf"
  | .infinity true => "-inf"
  | .finite negative m e =>
    let sign : Text := if negative then "-" else ""
    if m = 0 then sign ++ "0.0"
    else
      let (coefficient, grid) := shortest m e
      let digits := Decimal.ofNat coefficient
      sign ++ layOut (dropFinalZeros digits) (digits.length + grid)

end Binary64

end LvglForest
