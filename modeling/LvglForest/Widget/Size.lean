import LvglForest.Source.Operand
import LvglForest.Value.Display

/-!
# Sizes

A width or a height: a number of pixels, a percentage of the parent, or any other expression, which
is kept as it is written. The word `auto` stands for a size that was never set. Source and documents
give integers and texts; who edits a widget may set any value.
-/

namespace LvglForest

/-- A width or a height: a value as it is, or a percentage of the parent. -/
inductive Size where
  | plain (v : Value)
  | percent (v : Value)

namespace Size

/-- A number of pixels. -/
@[match_pattern]
def pixels (n : Int) : Size := .plain (.integer n)

/-- An expression. -/
@[match_pattern]
def token (t : Text) : Size := .plain (.text t)

/-- A size that was never set. -/
def auto : Size := .token "auto"

/-- Whether a size was never set. -/
def isAuto : Size → Bool
  | .plain v => v.isText "auto"
  | .percent _ => false

/-! ## In source -/

/-- The number text inside a call that makes a percentage. -/
def percentArgument? (t : Text) : Option Text :=
  match ("LV_PCT" : Text).isPrefixOf? t with
  | none => none
  | some r =>
    match Text.stripStart r with
    | .char '(' :: r =>
      let r := Text.stripStart r
      let sign : Text := if r.head? = some (.char '-') then [.char '-'] else []
      let r := r.drop sign.length
      let digits := r.takeWhile CodePoint.isDecimal
      let rest := Text.stripStart (r.dropWhile CodePoint.isDecimal)
      if !digits.isEmpty && rest = [.char ')'] then some (sign ++ digits) else none
    | _ => none

/-- The size that an argument of a setter gives. A percentage with too many digits is a fault. -/
def ofSource (t : Text) : Except Fault Size :=
  let t := t.strip
  if t.isEmpty then .ok auto
  else
    match percentArgument? t with
    | some digits => (Decimal.read digits).map fun n => .percent (.integer n)
    | none => .ok (.plain (Operand.ofSource t).toValue)

/-- The argument of a setter for a size. -/
def toSource : Size → Except Fault Text
  | .plain v => v.display
  | .percent v => v.display.map fun t => "LV_PCT(" ++ t ++ ")"

/-! ## In documents -/

/-- How a size shows. -/
def display : Size → Except Fault Text
  | .plain v => v.display
  | .percent v => v.display.map (· ++ "%")

/-- A size as a value: a percentage is a text. -/
def toValue : Size → Except Fault Value
  | .plain v => .ok v
  | s => s.display.map .text

/-- The size that a text in a document gives. -/
def ofText (t : Text) : Size :=
  let t := t.strip
  if t.getLast? = some (.char '%') then
    match Decimal.read t.dropLast with
    | .ok n => .percent (.integer n)
    | .error _ => .token t
  else
    match Decimal.read t with
    | .ok n => .pixels n
    | .error _ => .token t

/-- The size that a value gives: `auto` for null and truth values, otherwise what its text gives. -/
def ofValue : Value → Except Fault Size
  | .null | .truth _ => .ok auto
  | .integer n => .ok (.pixels n)
  | v => v.display.map ofText

end Size

end LvglForest
