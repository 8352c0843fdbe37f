import LvglForest.Detail
import LvglForest.Project.Subject

/-!
# Outlines

A forest of widgets as a list in Markdown: a heading, an empty line, then one item for each widget,
indented by its depth. On request the properties of a widget follow it as items one level deeper.
-/

namespace LvglForest.Outline

/-- The lines of the source that speak of a widget, where they are known and shown. -/
def sourceNote (d : Detail) (w : Widget) : Except Fault Text :=
  match d with
  | .concise => .ok ""
  | .verbose =>
    if w.source.first.isTrue then do
      let first ← w.source.first.display
      let last ← w.source.last.display
      return " [L" ++ first ++ "-" ++ last ++ "]"
    else .ok ""

/-- The item of a widget. -/
def item (d : Detail) (depth : Nat) (w : Widget) : Except Fault Text := do
  let identifier ← (w.identifier.orElse (.text "?")).display
  let kind ← w.kind.display
  let note ← sourceNote d w
  return d.indentTo depth ++ "- **" ++ identifier ++ "** (" ++ kind ++ ")" ++ note

/-- A property by itself: shown if it is given. -/
def single (name : Text) (v : Value) : Except Fault (List (Text × Text)) :=
  if v.isNull then .ok [] else v.display.map fun t => [(name, t)]

/-- The properties of a widget that are shown, in order. -/
def properties (w : Widget) : Except Fault (List (Text × Text)) := do
  let text ← single "text" w.text
  let value ← single "value" w.value
  let range : List (Text × Text) ←
    if w.rangeMin.isNull || w.rangeMax.isNull then pure []
    else do
      let min ← w.rangeMin.display
      let max ← w.rangeMax.display
      pure [("range", min ++ ".." ++ max)]
  let align ← single "align" w.align
  let position : List (Text × Text) ←
    if w.x.isZero && w.y.isZero then pure []
    else do
      let x ← w.x.display
      let y ← w.y.display
      pure [("position", "(" ++ x ++ ", " ++ y ++ ")")]
  let size : List (Text × Text) ←
    if w.width.isAuto && w.height.isAuto then pure []
    else do
      let width ← w.width.display
      let height ← w.height.display
      pure [("size", width ++ " x " ++ height)]
  let styles ← w.styles.items.mapM fun (k, v) => v.display.map ((("style." : Text) ++ k), ·)
  return text ++ value ++ range ++ align ++ position ++ size ++ styles

/-- The items of the properties of a widget. -/
def propertyItems (d : Detail) (depth : Nat) (w : Widget) : Except Fault (List Text) := do
  let shown ← properties w
  return shown.map fun (name, t) => d.indentTo (depth + 1) ++ "- " ++ name ++ ": `" ++ t ++ "`"

mutual

/-- The items of a tree. -/
def treeItems (d : Detail) (showProperties : Bool) (depth : Nat) :
    Tree Widget → Except Fault (List Text)
  | .node w ts => do
    let own ← item d depth w
    let shown ← if showProperties then propertyItems d depth w else pure []
    let below ← forestItems d showProperties (depth + 1) ts
    return own :: shown ++ below

/-- The items of a forest. -/
def forestItems (d : Detail) (showProperties : Bool) (depth : Nat) :
    List (Tree Widget) → Except Fault (List Text)
  | [] => .ok []
  | t :: ts => do
    let first ← treeItems d showProperties depth t
    let others ← forestItems d showProperties depth ts
    return first ++ others

end

/-- The items of subjects that should be widgets. -/
def subjectItems (d : Detail) (showProperties : Bool) : List Subject → Except Fault (List Text)
  | [] => .ok []
  | s :: ss => do
    let t ← s.asWidget
    let first ← treeItems d showProperties 0 t
    let others ← subjectItems d showProperties ss
    return first ++ others

/-- The heading under a title, which may be missing. -/
def heading (title : Value) : Except Fault Text :=
  if title.isTrue then title.display.map fun t => "# " ++ t ++ " Hierarchy"
  else .ok "# Widget Hierarchy"

/-- The lines of an outline with a title. -/
def lines (title : Value) (items : Except Fault (List Text)) : Except Fault (List Text) := do
  let first ← heading title
  let rest ← items
  return first :: [] :: rest

/-- The outline of a subject. -/
def ofSubject (d : Detail) (showProperties : Bool) (s : Subject) : Except Fault Text :=
  let written : Except Fault (List Text) :=
    match s with
    | .parsed p =>
      p.path.bind fun path =>
        lines (.text path.name) (forestItems d showProperties 0 p.widgets)
    | .screen s => lines s.name (forestItems d showProperties 0 s.widgets)
    | .list items => lines .null (subjectItems d showProperties items)
    | .widget t => lines .null (treeItems d showProperties 0 t)
    | .other _ => .error (.notAccepted .outline s.fullTypeName)
  written.map (Text.join "\n")

end LvglForest.Outline
