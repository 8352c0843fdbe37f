import LvglForest.Text.Basic

/-!
# Texts in wide units

The encodings of texts in units of two and of four bytes. A pair of surrogate units is one
character; a surrogate that stands alone is kept as it is. Bytes that fill no unit, and numbers
above the last code point, are no text.
-/

namespace LvglForest

/-- The order of the bytes of a unit. -/
inductive ByteOrder where
  | bigEndian
  | littleEndian
  deriving DecidableEq

namespace Wide

/-- The number that the bytes of a unit write. -/
def unitValue (order : ByteOrder) (bytes : List UInt8) : Nat :=
  let digits := match order with
    | .bigEndian => bytes
    | .littleEndian => bytes.reverse
  digits.foldl (fun n b => n * 0x100 + b.toNat) 0

/-- The units of two bytes. -/
def units16? (order : ByteOrder) : List UInt8 → Option (List Nat)
  | [] => some []
  | a :: b :: r => (units16? order r).map (unitValue order [a, b] :: ·)
  | _ => none

/-- The units of four bytes. -/
def units32? (order : ByteOrder) : List UInt8 → Option (List Nat)
  | [] => some []
  | a :: b :: c :: d :: r => (units32? order r).map (unitValue order [a, b, c, d] :: ·)
  | _ => none

/-- The text of units of two bytes. -/
def ofUnits16 : List Nat → Text
  | [] => []
  | [n] => [.ofNat n]
  | high :: low :: r =>
    if 0xD800 ≤ high && high < 0xDC00 && 0xDC00 ≤ low && low < 0xE000 then
      .ofNat (0x10000 + (high - 0xD800) * 0x400 + (low - 0xDC00)) :: ofUnits16 r
    else .ofNat high :: ofUnits16 (low :: r)

/-- The text of bytes in units of two. -/
def decode16? (order : ByteOrder) (bytes : List UInt8) : Option Text :=
  (units16? order bytes).map ofUnits16

/-- The text of bytes in units of four. -/
def decode32? (order : ByteOrder) (bytes : List UInt8) : Option Text :=
  (units32? order bytes).bind fun units =>
    if units.all (· < 0x110000) then some (units.map CodePoint.ofNat) else none

end Wide

end LvglForest
