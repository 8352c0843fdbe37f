import LvglForest.Forest
import LvglForest.Widget.Anchor
import LvglForest.Widget.Kind
import LvglForest.Widget.Size
import LvglForest.Widget.Style

/-!
# Widgets

What is known of one widget, without the widgets below it: a forest of widgets is a forest of these
records. Documents may give names and properties of any shape, so these are values, null where
nothing is given; a widget whose names and properties have the shapes that source gives them is
well typed. The place of a widget is given by integers, but who edits it may set any values.
-/

namespace LvglForest

/-- Where a widget was found: the file, and the first and the last line that speak of it. A first
line of zero, or one that does not count as given, stands for none. -/
structure SourceRange where
  file : Value := .null
  first : Value := .integer 0
  last : Value := .integer 0

/-- One widget. -/
structure Widget where
  kind : Value
  identifier : Value
  parent : Value := .null
  text : Value := .null
  value : Value := .null
  rangeMin : Value := .null
  rangeMax : Value := .null
  align : Value := .null
  styles : Styles := {}
  x : Value := .integer 0
  y : Value := .integer 0
  width : Size := .auto
  height : Size := .auto
  source : SourceRange := {}

namespace Widget

/-- The anchor of a widget, if its alignment keyword has one. -/
def anchor? (w : Widget) : Except Fault (Option Anchor) :=
  match w.align with
  | .null => .ok none
  | .text t => .ok (Anchor.ofKeyword? t)
  | v => v.checkHashable.map fun _ => none

/-- Aligns a widget to the anchor with the given names, or to the corner if there is none. -/
def setAnchor (horizontal vertical : Value) (w : Widget) : Widget :=
  { w with align := .text ((Anchor.ofNames? horizontal vertical).getD .corner).keyword }

end Widget

end LvglForest
