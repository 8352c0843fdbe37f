import LvglForest.Service.Percent
import LvglForest.Table

/-!
# Forms

The fields of a form as a browser sends them: fields are joined by ampersands, a name and its value
by an equals sign; a blank is sent as a plus sign, and any byte as a percent escape. Bytes that are
no part of a character keep their percent signs.
-/

namespace LvglForest.Form

/-- A plus sign stands for a blank. -/
def plusToBlank (p : CodePoint) : CodePoint := if p = .char '+' then .char ' ' else p

/-- A byte that is no part of a character, with its percent sign. -/
def showStray (p : CodePoint) : Text :=
  match p.strayByte? with
  | some b => Percent.escape b
  | none => [p]

/-- The text that a part of a sent form stands for. -/
def unescape (t : Text) : Text :=
  (Utf8.decode (Percent.bytes (t.map plusToBlank))).flatMap showStray

/-- The name and the value of a field. A field without an equals sign has an empty value. -/
def field (t : Text) : Text × Text :=
  (unescape (t.takeWhile (· ≠ .char '=')), unescape ((t.dropWhile (· ≠ .char '=')).drop 1))

/-- The fields of a sent form in order. A name may be given more than once. -/
def ofText (t : Text) : List (Text × Text) :=
  ((Text.splitOn (.char '&') t).filter fun part => !part.isEmpty).map field

/-- The fields of a form that is sent as bytes. Bytes that are no text hold none. -/
def ofBytes (bytes : List UInt8) : List (Text × Text) :=
  match Utf8.decodeStrict bytes with
  | .ok t => ofText t
  | .error _ => []

end LvglForest.Form
