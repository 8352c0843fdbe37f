import LvglForest.Text.Blank
import LvglForest.Text.Word

/-!
# Colours

A colour given by a hexadecimal number is kept as that number and wrapped into the call that makes a
colour of it when it is written. Every other colour expression is kept as it is.
-/

namespace LvglForest.Color

/-- `0x` and at least one hexadecimal digit. -/
def isHex : Text → Bool
  | .char '0' :: .char 'x' :: digits => !digits.isEmpty && digits.all CodePoint.isHexDigit
  | _ => false

/-- The number inside a call that makes a colour of a hexadecimal number. -/
def hexArgument? (t : Text) : Option Text :=
  match ("lv_color_hex" : Text).isPrefixOf? t with
  | none => none
  | some r =>
    match Text.stripStart r with
    | .char '(' :: r =>
      match Text.stripStart r with
      | .char '0' :: .char 'x' :: r =>
        let digits := r.takeWhile CodePoint.isHexDigit
        if digits.isEmpty then none
        else if Text.stripStart (r.dropWhile CodePoint.isHexDigit) = [.char ')'] then
          some (.char '0' :: .char 'x' :: digits)
        else none
      | _ => none
    | _ => none

/-- The colour that is kept for a source expression. -/
def ofSource (t : Text) : Text := (hexArgument? t.strip).getD t.strip

/-- The source expression of a kept colour. A hexadecimal number may be followed by one line feed.
-/
def toSource (value : Text) : Text :=
  if isHex value.dropFinalNewline then "lv_color_hex(" ++ value ++ ")" else value

end LvglForest.Color
