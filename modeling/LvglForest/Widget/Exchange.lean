import LvglForest.Widget.Basic

/-!
# Widgets in documents

Widgets and screens as values of the exchange format and back. Reading takes values of any shape for
names and properties as they are. It fails where a part has a shape that cannot hold what is looked
for in it, or where a coordinate is no integer.
-/

namespace LvglForest

/-- A screen: one page of the user interface. -/
structure Screen where
  name : Value
  widgets : Forest Widget

/-! ## Writing -/

namespace Widget

/-- The properties that are given. -/
def properties (w : Widget) : List (Text × Value) :=
  [(("text" : Text), w.text), ("value", w.value), ("range_min", w.rangeMin),
    ("range_max", w.rangeMax), ("align", w.align)].filter fun (_, v) => !v.isNull

/-- The fields of a widget's record that come before its children. -/
def ownFields (w : Widget) : Except Fault (List (Text × Value)) := do
  let width ← w.width.toValue
  let height ← w.height.toValue
  return [("kind", w.kind), ("identifier", w.identifier), ("parent_identifier", w.parent),
    ("properties", .record w.properties), ("styles", w.styles.toValue),
    ("position", .record [("x", w.x), ("y", w.y)]),
    ("size", .record [("width", width), ("height", height)])]

/-- The fields of a widget's record that come after its children. -/
def lastFields (w : Widget) : Except Fault (List (Text × Value)) := do
  let anchor? ← w.anchor?
  let anchor : List (Text × Value) :=
    match anchor? with
    | some a => [("anchor", .list [.text a.horizontal.name, .text a.vertical.name])]
    | none => []
  let lines : List (Text × Value) :=
    if w.source.first.isTrue then [("source_lines", .list [w.source.first, w.source.last])]
    else []
  return anchor ++ lines

end Widget

mutual

/-- The record of a widget and those below it. -/
def Tree.toValue : Tree Widget → Except Fault Value
  | .node w ts => do
    let own ← w.ownFields
    let children ← Forest.toValues ts
    let last ← w.lastFields
    return .record (own ++ [(("children" : Text), Value.list children)] ++ last)

/-- The records of the widgets of a forest. -/
def Forest.toValues : List (Tree Widget) → Except Fault (List Value)
  | [] => .ok []
  | t :: ts => do
    let v ← Tree.toValue t
    let vs ← Forest.toValues ts
    return v :: vs

end

/-- The record of a screen. -/
def Screen.toValue (s : Screen) : Except Fault Value := do
  let widgets ← Forest.toValues s.widgets
  return .record [("name", s.name), ("widgets", .list widgets)]

/-! ## Reading -/

/-- The integer that a coordinate gives: zero if none is given, and a float without its fraction. -/
def Value.toCoordinate (v : Value) : Except Fault Int :=
  match v with
  | .null => .ok 0
  | .truth b => .ok (if b then 1 else 0)
  | .integer n => .ok n
  | .real .nan => .error .noIntegerPart
  | .real (.infinity _) => .error .infinite
  | .real x => .ok (x.truncate?.getD 0)
  | .text t => if t.isEmpty then .ok 0 else Decimal.read t
  | .list vs => if vs.isEmpty then .ok 0 else .error (.notNumber .list)
  | .record fs => if fs.isEmpty then .ok 0 else .error (.notNumber .record)

namespace Widget

/-- The widget that the fields of a record describe. An anchor counts only if no alignment is
given. -/
def ofFields (fs : Table Value) : Except Fault Widget := do
  let given (name : Text) : Value := (fs.get? name).getD .null
  let position := (given "position").orElse (.record [])
  let size := (given "size").orElse (.record [])
  let properties := (given "properties").orElse (.record [])
  let text ← properties.field "text"
  let value ← properties.field "value"
  let rangeMin ← properties.field "range_min"
  let rangeMax ← properties.field "range_max"
  let align ← properties.field "align"
  let styles ← Styles.ofValue ((given "styles").orElse (.record []))
  let x ← (← position.field "x").toCoordinate
  let y ← (← position.field "y").toCoordinate
  let width ← Size.ofValue (← size.field "width")
  let height ← Size.ofValue (← size.field "height")
  let w : Widget :=
    { kind := (given "kind").orElse (.text Kind.container.name)
      identifier := (given "identifier").orElse (.text [])
      parent := given "parent_identifier"
      text, value, rangeMin, rangeMax, align, styles, width, height
      x := .integer x
      y := .integer y }
  let anchor := given "anchor"
  if align.isNull && anchor.isTrue then
    let horizontal ← anchor.item 0
    let vertical ← anchor.item 1
    horizontal.checkHashable
    vertical.checkHashable
    return w.setAnchor horizontal vertical
  else return w

end Widget

mutual

/-- The widget that a value describes, with those below it. -/
def Tree.ofValue : Value → Except Fault (Tree Widget)
  | .record fs => do
    let w ← Widget.ofFields fs
    let ts ← Forest.ofField "children" fs
    return .node w ts
  | v => .error (.noMember v.shape.name "get")

/-- The widgets that the items of a field describe. A field that is not given holds none. -/
def Forest.ofField (name : Text) : List (Text × Value) → Except Fault (Forest Widget)
  | [] => .ok []
  | (k, v) :: fs => if k = name then Forest.ofItems v else Forest.ofField name fs

/-- The widgets that the items of a value describe. The items of a text and the field names of a
record are texts, and no text describes a widget. -/
def Forest.ofItems : Value → Except Fault (Forest Widget)
  | .list vs => Forest.ofValues vs
  | .text (_ :: _) | .record (_ :: _) => .error (.noMember Shape.text.name "get")
  | v => if v.isTrue then .error (.notIterable v.shape) else .ok []

/-- The widgets that values describe. -/
def Forest.ofValues : List Value → Except Fault (Forest Widget)
  | [] => .ok []
  | v :: vs => do
    let t ← Tree.ofValue v
    let ts ← Forest.ofValues vs
    return t :: ts

end

/-- The name of a screen that gives none. -/
def Screen.defaultName : Text := "main_screen"

/-- The screen that a value describes. -/
def Screen.ofValue : Value → Except Fault Screen
  | .record fs => do
    let widgets ← Forest.ofField "widgets" fs
    return { name := ((Table.get? "name" fs).getD .null).orElse (.text defaultName), widgets }
  | v => .error (.noMember v.shape.name "get")

/-- The screens that values describe. -/
def Screen.ofValues : List Value → Except Fault (List Screen)
  | [] => .ok []
  | v :: vs => do
    let s ← ofValue v
    let ss ← ofValues vs
    return s :: ss

end LvglForest
