import LvglForest.Decimal.Binary64
import LvglForest.Fault
import LvglForest.Table

/-!
# Values of the exchange format

Documents are exchanged as values: null, truth values, numbers, texts, lists and records. Whoever
sends a document may put a value of any shape anywhere, so the questions asked of a value (a field,
its items, one item by number) can fail, and the fault says what was found instead.
-/

namespace LvglForest

/-- A value of the exchange format. The fields of a record have distinct names. -/
inductive Value where
  | null
  | truth (b : Bool)
  | integer (n : Int)
  | real (x : Binary64)
  | text (t : Text)
  | list (items : List Value)
  | record (fields : List (Text × Value))

namespace Value

/-- The shape of a value. -/
def shape : Value → Shape
  | .null => .null
  | .truth _ => .truth
  | .integer _ => .integer
  | .real _ => .real
  | .text _ => .text
  | .list _ => .list
  | .record _ => .record

/-- Null, false, zero and whatever is empty do not count as given. -/
def isTrue : Value → Bool
  | .null => false
  | .truth b => b
  | .integer n => n ≠ 0
  | .real x => x.isTrue
  | .text t => !t.isEmpty
  | .list items => !items.isEmpty
  | .record fields => !fields.isEmpty

/-- The value, or another one if it does not count as given. -/
def orElse (v w : Value) : Value := if v.isTrue then v else w

/-- Whether a value is null. -/
def isNull : Value → Bool
  | .null => true
  | _ => false

/-- Whether a value is the number zero. A false truth value counts as zero. -/
def isZero : Value → Bool
  | .truth b => !b
  | .integer n => n = 0
  | .real x => !x.isTrue
  | _ => false

/-- Whether a value is the given text. -/
def isText (t : Text) : Value → Bool
  | .text u => u = t
  | _ => false

/-- The fields of a record. -/
def fields : Value → Except Fault (Table Value)
  | .record fs => .ok fs
  | v => .error (.noMember v.shape.name "items")

/-- A field of a record, null if it is missing. -/
def field (name : Text) : Value → Except Fault Value
  | .record fs => .ok ((Table.get? name fs).getD .null)
  | v => .error (.noMember v.shape.name "get")

/-- What a value has one after the other: the items of a list, the characters of a text or the field
names of a record. -/
def items : Value → Except Fault (List Value)
  | .list vs => .ok vs
  | .text t => .ok (t.map fun p => .text [p])
  | .record fs => .ok (fs.map fun f => .text f.1)
  | v => .error (.notIterable v.shape)

/-- The text that a value gives one character after the other. -/
def characters (v : Value) : Except Fault Text := do
  let items ← v.items
  items.mapM fun
    | .text [p] => .ok p
    | .text t => .error (.notCharacter t.length)
    | v => .error (.characterExpected v.shape)

/-- The item of a given number. A record has no field whose name is a number. -/
def item (index : Nat) : Value → Except Fault Value
  | .list vs => match vs[index]? with
    | some v => .ok v
    | none => .error (.noIndex .list)
  | .text t => match t[index]? with
    | some p => .ok (.text [p])
    | none => .error (.noIndex .text)
  | .record _ => .error (.noKey index)
  | v => .error (.notIndexable v.shape)

/-- Lists and records are no keys of a table; every other value could be one. -/
def checkHashable : Value → Except Fault Unit
  | .list _ => .error (.notHashable .list)
  | .record _ => .error (.notHashable .record)
  | _ => .ok ()

end Value

end LvglForest
