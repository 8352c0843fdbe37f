import LvglForest.Text.Utf8

/-!
# Percent escapes

Any byte can be sent as a percent sign with two hexadecimal digits. Everything else stands for the
bytes of its own encoding.
-/

namespace LvglForest.Percent

/-- The bytes that an escaped text stands for. -/
def bytes : Text → List UInt8
  | [] => []
  | .char '%' :: a :: b :: t =>
    if a.isHexDigit && b.isHexDigit then .ofNat (a.hexValue * 16 + b.hexValue) :: bytes t
    else 0x25 :: bytes (a :: b :: t)
  | p :: t => (Utf8.encodePoint? p).getD [] ++ bytes t

/-- A text in which single bytes are escaped that stand for one code point each. -/
def unescapeEach (decode : UInt8 → CodePoint) : Text → Text
  | [] => []
  | .char '%' :: a :: b :: t =>
    if a.isHexDigit && b.isHexDigit then
      decode (.ofNat (a.hexValue * 16 + b.hexValue)) :: unescapeEach decode t
    else .char '%' :: unescapeEach decode (a :: b :: t)
  | p :: t => p :: unescapeEach decode t

/-- The escape of a byte, in capital digits. -/
def escape (b : UInt8) : Text :=
  [.char '%', .char (Nat.digitChar (b.toNat / 16)).toUpper,
    .char (Nat.digitChar (b.toNat % 16)).toUpper]

end LvglForest.Percent
