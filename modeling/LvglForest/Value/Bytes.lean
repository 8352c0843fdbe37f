import LvglForest.Text.Utf8
import LvglForest.Text.Wide
import LvglForest.Value.Read

/-!
# Values as bytes

The JSON notation as bytes in an encoding that is not named beside them. A byte order mark names it.
Without one the place of the zero bytes tells it, since a value starts with an ASCII character: in
wide units such a character has zeros on one side.
-/

namespace LvglForest

/-- An encoding in which values are exchanged. -/
inductive ExchangeEncoding where
  | utf8
  | units16 (order : ByteOrder)
  | units32 (order : ByteOrder)
  deriving DecidableEq

namespace ExchangeEncoding

/-- The encoding that the zeros among the first bytes tell. -/
def ofZeros : List UInt8 → ExchangeEncoding
  | [a, b] =>
    if a == 0 then .units16 .bigEndian else if b == 0 then .units16 .littleEndian else .utf8
  | a :: b :: c :: d :: _ =>
    if a == 0 then if b == 0 then .units32 .bigEndian else .units16 .bigEndian
    else if b == 0 then
      if c == 0 && d == 0 then .units32 .littleEndian else .units16 .littleEndian
    else .utf8
  | _ => .utf8

/-- The encoding of bytes, and the bytes after the byte order mark if there is one. -/
def detect : List UInt8 → ExchangeEncoding × List UInt8
  | 0x00 :: 0x00 :: 0xFE :: 0xFF :: r => (.units32 .bigEndian, r)
  | 0xFF :: 0xFE :: 0x00 :: 0x00 :: r => (.units32 .littleEndian, r)
  | 0xFE :: 0xFF :: r => (.units16 .bigEndian, r)
  | 0xFF :: 0xFE :: r => (.units16 .littleEndian, r)
  | 0xEF :: 0xBB :: 0xBF :: r => (.utf8, r)
  | bytes => (ofZeros bytes, bytes)

/-- The text of bytes. Surrogates that are encoded one by one are kept. -/
def decode? : ExchangeEncoding → List UInt8 → Option Text
  | .utf8, bytes => Utf8.decodePassing bytes
  | .units16 order, bytes => Wide.decode16? order bytes
  | .units32 order, bytes => Wide.decode32? order bytes

end ExchangeEncoding

/-- The value that bytes write. -/
def Value.ofBytes? (bytes : List UInt8) : Option Value :=
  let (encoding, bytes) := ExchangeEncoding.detect bytes
  (encoding.decode? bytes).bind Value.read?

end LvglForest
