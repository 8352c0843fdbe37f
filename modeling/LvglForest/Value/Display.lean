import LvglForest.Decimal.Integer
import LvglForest.Value.Basic

/-!
# Values as text

A text shows as itself and everything else as it is written: `None`, `True`, `False`, numbers in
decimal, lists in brackets and records in braces, with the texts inside them between quotes. An
integer with too many digits cannot be shown.
-/

namespace LvglForest.Value

mutual

/-- How a value is written inside a list or a record. -/
def written : Value → Except Fault Text
  | .null => .ok "None"
  | .truth true => .ok "True"
  | .truth false => .ok "False"
  | .integer n => Decimal.write n
  | .real x => .ok x.write
  | .text t => .ok t.quoted
  | .list vs => (writtenItems vs).map fun ts => "[" ++ Text.join ", " ts ++ "]"
  | .record fs => (writtenFields fs).map fun ts => "\x7b" ++ Text.join ", " ts ++ "\x7d"

/-- The items of a list as they are written. -/
def writtenItems : List Value → Except Fault (List Text)
  | [] => .ok []
  | v :: vs =>
    match written v with
    | .error f => .error f
    | .ok t => (writtenItems vs).map (t :: ·)

/-- The fields of a record as they are written. -/
def writtenFields : List (Text × Value) → Except Fault (List Text)
  | [] => .ok []
  | (k, v) :: fs =>
    match written v with
    | .error f => .error f
    | .ok t => (writtenFields fs).map ((k.quoted ++ ": " ++ t) :: ·)

end

/-- How a value shows in a text. -/
def display : Value → Except Fault Text
  | .text t => .ok t
  | v => v.written

end LvglForest.Value
