import LvglForest.Service.Percent

/-!
# Charsets

The encodings that a part of a request may name for itself. Bytes that an encoding has no character
for are replaced by U+FFFD.
-/

namespace LvglForest

/-- An encoding of a part of a request. -/
inductive Charset where
  | ascii
  | latin1
  | utf8
  deriving DecidableEq

namespace Charset

/-- The charset of a name in small letters. -/
def ofName? (name : Text) : Option Charset :=
  if name = "ascii" || name = "us-ascii" then some .ascii
  else if name = "iso-8859-1" then some .latin1
  else if name = "utf-8" then some .utf8
  else none

/-- The code point of a byte below `0x80`. -/
def asciiPoint (b : UInt8) : CodePoint := if b < 0x80 then .ofNat b.toNat else .char '\uFFFD'

/-- The text of bytes. -/
def decode : Charset → List UInt8 → Text
  | .ascii, bytes => bytes.map asciiPoint
  | .latin1, bytes => bytes.map fun b => .ofNat b.toNat
  | .utf8, bytes => Utf8.decodeReplacing bytes

/-- The text that an escaped text stands for. -/
def unescape : Charset → Text → Text
  | .ascii, t => Percent.unescapeEach asciiPoint t
  | .latin1, t => Percent.unescapeEach (fun b => .ofNat b.toNat) t
  | .utf8, t => Utf8.decodeReplacing (Percent.bytes t)

end Charset

end LvglForest
