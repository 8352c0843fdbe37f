import LvglForest.Value.Equal

/-!
# Membership

What a value holds: a list its items, a text its parts, and a record the names of its fields. Other
values hold nothing, and to look for something in them is a fault.
-/

namespace LvglForest.Value

/-- The list of texts. -/
def texts (ts : List Text) : Value := .list (ts.map .text)

/-- Whether a value holds another one. -/
def holds (v part : Value) : Except Fault Bool :=
  match v, part with
  | .list items, w => .ok (items.any w.equal)
  | .text t, .text u => .ok (Text.hasInfix u t)
  | .text _, w => .error (.notPart w.shape)
  | .record fs, .text k => .ok (Table.has k fs)
  | .record _, w => w.checkHashable.map fun _ => false
  | v, _ => .error (.notContainer v.shape)

/-- Whether a value holds one of several, which are tried in order. -/
def holdsAny (v : Value) : List Value → Except Fault Bool
  | [] => .ok false
  | part :: parts =>
    match v.holds part with
    | .ok false => holdsAny v parts
    | found => found

end LvglForest.Value
