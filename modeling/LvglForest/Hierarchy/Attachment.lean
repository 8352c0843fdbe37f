import LvglForest.Forest
import LvglForest.Hierarchy.Collection
import LvglForest.Value.Membership

/-!
# Attachment

From parent references to a forest of identifiers. At the start every created identifier is a tree
of its own. In the order of first creation each one is then hung under the widget that its
reference names, as the last child, if that widget was created in the same file and does not lie in
the tree of the identifier itself. So the result is a forest whatever the references say: a cycle
of references is cut where its last member would be hung.
-/

namespace LvglForest.Attachment

/-- The identifiers of a collection, each as a tree of its own. -/
def seeds (entries : Table Entry) : Forest Text := entries.keys.map fun id => .node id []

/-- The tree that can be hung under a parent, if there is one. -/
def movable? (entries : Table Entry) (forest : Forest Text) (id parent : Text) :
    Option (Tree Text) :=
  match forest.rooted? id with
  | none => none
  | some tree => if entries.has parent && !tree.toList.contains parent then some tree else none

/-- Whether an identifier can be hung under the parent that its reference names. -/
def isMovable (entries : Table Entry) (forest : Forest Text) (id : Text) (reference : Value) :
    Bool :=
  match reference with
  | .text parent => (movable? entries forest id parent).isSome
  | _ => false

/-- Hangs one identifier under the parent that its reference names. -/
def attach (entries : Table Entry) (forest : Forest Text) (id : Text) (reference : Value) :
    Forest Text :=
  match reference with
  | .text parent =>
    match movable? entries forest id parent with
    | some tree => Forest.graft parent tree (forest.without id)
    | none => forest
  | _ => forest

/-- Hangs identifiers one after the other. -/
def attachAll (entries : Table Entry) (forest : Forest Text) : List (Text × Entry) → Forest Text
  | [] => forest
  | (id, e) :: rest => attachAll entries (attach entries forest id e.parent) rest

/-- The forest of the identifiers of a collection. -/
def forest (entries : Table Entry) : Forest Text := attachAll entries (seeds entries) entries

/-! ## Roots -/

/-- The names that, unless others are chosen, stand for the parent that a caller passes in. -/
def defaultPlaceholders : Value := .texts ["parent"]

/-- Whether a reference stands for the parent that a caller passes in: it is not given, or it is
among the names that were chosen. -/
def placeholder? (placeholders reference : Value) : Except Fault Bool :=
  if reference.isTrue then placeholders.holds reference else .ok true

/-- A reference that stands for the parent that a caller passes in. -/
def isPlaceholder (placeholders reference : Value) : Bool :=
  (placeholder? placeholders reference).toOption.getD false

/-- What becomes of a created widget. -/
inductive Standing where
  /-- It is hung under the widget that its reference names. -/
  | attached
  /-- It is a root, and its reference stands for the parent that a caller passes in. -/
  | placed
  /-- It is a root, and its reference names nothing. -/
  | unresolved

/-- What becomes of the widget of an identifier. -/
def standing (placeholders : Value) (entries : Table Entry) (forest : Forest Text) (id : Text)
    (reference : Value) : Except Fault Standing := do
  reference.checkHashable
  if isMovable entries forest id reference then return .attached
  else
    let isPlaced ← placeholder? placeholders reference
    return if isPlaced then .placed else .unresolved

/-- The fault that ends the work while identifiers are hung, if there is one. -/
def fault? (placeholders : Value) (entries : Table Entry) :
    Forest Text → List (Text × Entry) → Option Fault
  | _, [] => none
  | forest, (id, e) :: rest =>
    match standing placeholders entries forest id e.parent with
    | .error f => some f
    | .ok _ => fault? placeholders entries (attach entries forest id e.parent) rest

/-- Remarks on references that name no parent while identifiers are hung, up to a fault. -/
def remarks (placeholders : Value) (entries : Table Entry) :
    Forest Text → List (Text × Entry) → List LogRecord
  | _, [] => []
  | forest, (id, e) :: rest =>
    let others := remarks placeholders entries (attach entries forest id e.parent) rest
    match standing placeholders entries forest id e.parent with
    | .error _ => []
    | .ok .unresolved =>
      let reference := e.parent.display.toOption.getD []
      { level := .debug, source := .hierarchy
        text := "无法解析 " ++ id ++ " 的父引用 " ++ reference ++ "，作为根控件处理" } :: others
    | .ok _ => others

end LvglForest.Attachment
