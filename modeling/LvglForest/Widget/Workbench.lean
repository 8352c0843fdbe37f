import LvglForest.Widget.Basic

/-!
# Workbenches

Widgets that are edited by name while they are put together. A widget may be a child of several
others, or of one of them several times, and a change of it shows wherever it is a child. The forest
of a widget is unfolded when it is asked for.
-/

namespace LvglForest

/-- Widgets with the numbers of their children, and the names that stand for widgets. -/
structure Workbench where
  widgets : List (Widget × List Nat) := []
  names : Table Nat := []

namespace Workbench

/-- Makes a new widget and lets a name stand for it. -/
def new (name : Text) (w : Widget) (b : Workbench) : Workbench where
  widgets := b.widgets ++ [(w, [])]
  names := b.names.put name b.widgets.length

/-- Changes the widget that a name stands for. -/
def edit (name : Text) (f : Widget → Widget) (b : Workbench) : Workbench :=
  match b.names.get? name with
  | none => b
  | some i => { b with widgets := b.widgets.modify i fun (w, children) => (f w, children) }

/-- Adds one named widget as the last child of another. -/
def adopt (parent child : Text) (b : Workbench) : Workbench :=
  match b.names.get? parent, b.names.get? child with
  | some i, some j =>
    { b with widgets := b.widgets.modify i fun (w, children) => (w, children ++ [j]) }
  | _, _ => b

/-- The tree of a widget down to a number of levels. -/
def unfold (b : Workbench) : Nat → Nat → Option (Tree Widget)
  | 0, _ => none
  | levels + 1, i =>
    b.widgets[i]?.map fun (w, children) => .node w (children.filterMap (unfold b levels))

/-- The tree of a named widget. Where no widget is below itself, there are no more levels than
widgets. -/
def tree? (name : Text) (b : Workbench) : Option (Tree Widget) :=
  (b.names.get? name).bind (b.unfold b.widgets.length)

end Workbench

end LvglForest
