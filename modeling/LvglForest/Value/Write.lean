import LvglForest.Text.Quoted
import LvglForest.Value.Basic

/-!
# Writing values

The JSON notation of values in ASCII: every other character is escaped, those above U+FFFF as a
surrogate pair.
-/

namespace LvglForest.Value

/-- A code point inside a written text. -/
def escaped : CodePoint → Text
  | .char '"' => "\\\""
  | .char '\\' => "\\\\"
  | .char '\n' => "\\n"
  | .char '\r' => "\\r"
  | .char '\t' => "\\t"
  | p =>
    if 0x20 ≤ p.value ∧ p.value < 0x7F then [p]
    else if p.value < 0x10000 then "\\u" ++ hexText 4 p.value
    else
      let n := p.value - 0x10000
      "\\u" ++ hexText 4 (0xD800 + n / 0x400) ++ "\\u" ++ hexText 4 (0xDC00 + n % 0x400)

/-- A written text. -/
def textNotation (t : Text) : Text := "\"" ++ t.flatMap escaped ++ "\""

/-- A written float. -/
def realNotation : Binary64 → Text
  | .nan => "NaN"
  | .infinity false => "Infinity"
  | .infinity true => "-Infinity"
  | x => x.write

mutual

/-- The notation of a value. -/
def toJson : Value → Text
  | .null => "null"
  | .truth true => "true"
  | .truth false => "false"
  | .integer n => Decimal.ofInt n
  | .real x => realNotation x
  | .text t => textNotation t
  | .list vs => "[" ++ Text.join ", " (itemNotations vs) ++ "]"
  | .record fs => "\x7b" ++ Text.join ", " (fieldNotations fs) ++ "\x7d"

/-- The notations of the items of a list. -/
def itemNotations : List Value → List Text
  | [] => []
  | v :: vs => toJson v :: itemNotations vs

/-- The notations of the fields of a record. -/
def fieldNotations : List (Text × Value) → List Text
  | [] => []
  | (k, v) :: fs => (textNotation k ++ ": " ++ toJson v) :: fieldNotations fs

end

end LvglForest.Value
