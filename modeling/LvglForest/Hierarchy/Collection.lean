import LvglForest.Fact.Basic
import LvglForest.Log
import LvglForest.Widget.Basic

/-!
# Collection of facts

The facts of a file gathered by widget. The first creation of an identifier starts its entry; later
facts about it change the entry, the last one of each kind counts, and a repeated creation replaces
only the kind and the parent. Facts about an identifier before its creation are lost, except that a
declaration is remembered.
-/

namespace LvglForest

/-- What the facts say about one created widget. -/
structure Entry where
  kind : Value
  /-- The parent as the creation writes it. -/
  parent : Value
  text : Value := .null
  value : Value := .null
  rangeMin : Value := .null
  rangeMax : Value := .null
  align : Value := .null
  styles : Styles := {}
  x : Value := .integer 0
  y : Value := .integer 0
  width : Size := .auto
  height : Size := .auto
  firstLine : Value
  lastLine : Value

namespace Entry

/-- The entry of a first creation. -/
def start (kind parent line : Value) : Entry :=
  { kind, parent, firstLine := line, lastLine := line }

/-- The change that an assertion makes to an entry. -/
def assert (a : Assertion) (e : Entry) : Entry :=
  match a with
  | .declared _ => e
  | .created kind _ parent => { e with kind, parent }
  | .text text => { e with text }
  | .size width height => { e with width, height }
  | .value value => { e with value }
  | .range rangeMin rangeMax => { e with rangeMin, rangeMax }
  | .style key value => { e with styles := e.styles.set key value }
  | .align align x y => { e with align, x, y }
  | .center => { e with align := .text Anchor.middle.keyword, x := .integer 0, y := .integer 0 }
  | .position x y => { e with align := .null, x, y }

/-- The change that a fact makes to an entry. -/
def apply (f : Fact) (e : Entry) : Entry := { e.assert f.assertion with lastLine := f.line }

/-- The widget of an entry. -/
def toWidget (file : Value) (identifier : Text) (parent : Value) (e : Entry) : Widget where
  kind := e.kind
  identifier := .text identifier
  parent
  text := e.text
  value := e.value
  rangeMin := e.rangeMin
  rangeMax := e.rangeMax
  align := e.align
  styles := e.styles
  x := e.x
  y := e.y
  width := e.width
  height := e.height
  source := { file, first := e.firstLine, last := e.lastLine }

end Entry

/-- The entries of a file by identifier in the order of first creation, and the declared types of
identifiers that were declared before any creation. -/
structure Collection where
  entries : Table Entry := []
  declared : Table Value := []

namespace Collection

/-- Adds a fact. -/
def add (f : Fact) (c : Collection) : Collection :=
  match f.assertion with
  | .declared type =>
    if c.entries.has f.identifier then c
    else { c with declared := c.declared.put f.identifier type }
  | .created kind _ parent =>
    if c.entries.has f.identifier then
      { c with entries := c.entries.adjust f.identifier (·.apply f) }
    else { c with entries := c.entries.put f.identifier (.start kind parent f.line) }
  | _ => { c with entries := c.entries.adjust f.identifier (·.apply f) }

/-- The collection of facts in order. -/
def ofFacts (fs : List Fact) : Collection := fs.foldl (fun c f => c.add f) {}

/-- The declarations of the file: the kind of a created widget, otherwise the declared type. -/
def declarations (c : Collection) : Table Value :=
  c.declared.map fun (identifier, type) =>
    (identifier, (c.entries.get? identifier).elim type Entry.kind)

/-- Remarks on repeated creations while facts are added. -/
def remarks (file : Value) : Collection → List Fact → List LogRecord
  | _, [] => []
  | c, f :: fs =>
    let here : List LogRecord :=
      match f.assertion with
      | .created _ _ _ =>
        if c.entries.has f.identifier then
          let shown (v : Value) : Text := v.display.toOption.getD []
          [{ level := .debug, source := .hierarchy
             text := shown file ++ ":" ++ shown f.line ++ ": 重复创建 " ++ f.identifier }]
        else []
      | _ => []
    here ++ remarks file (c.add f) fs

end Collection

end LvglForest
