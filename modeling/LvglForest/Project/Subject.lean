import LvglForest.Hierarchy.ParsedFile

/-!
# Subjects

What can be handed to the operations that show widgets or generate source from them: a widget with
those below it, a screen, a parsed file, a list of such things, or any other value, which is
refused.
-/

namespace LvglForest

/-- Something that widgets may be taken from. -/
inductive Subject where
  | widget (t : Tree Widget)
  | screen (s : Screen)
  | parsed (p : ParsedFile)
  | list (items : List Subject)
  | other (v : Value)

namespace Subject

/-- The type of a subject in messages. -/
def typeName : Subject → Text
  | .widget _ => "Widget"
  | .screen _ => "Screen"
  | .parsed _ => "ParsedFile"
  | .list _ => "list"
  | .other v => v.shape.name

/-- The type of a subject in messages that give it in full. -/
def fullTypeName (s : Subject) : Text :=
  match s with
  | .list _ | .other _ => "<class '" ++ s.typeName ++ "'>"
  | _ => "<class 'lvgl_bridge.models." ++ s.typeName ++ "'>"

/-- The subject as a widget. Nothing else has an identifier. -/
def asWidget : Subject → Except Fault (Tree Widget)
  | .widget t => .ok t
  | s => .error (.noMember s.typeName "identifier")

end Subject

end LvglForest
