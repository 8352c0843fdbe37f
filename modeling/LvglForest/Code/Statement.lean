import LvglForest.Text.Basic

/-!
# Statements

The lines of a generated function: statements that create a widget or call a setter, comments, and
the empty line after the statements of a widget.
-/

namespace LvglForest

/-- One line of generated source. -/
inductive Statement where
  /-- Names the widget that the next statements are about. -/
  | comment (identifier kind : Text)
  /-- Creates a widget under a parent and keeps it in a variable. -/
  | create (target sourceName parent : Text)
  /-- Calls a function. -/
  | call (function : Text) (arguments : List Text)
  /-- Nothing. -/
  | gap
  deriving DecidableEq

namespace Statement

/-- The source of a statement. -/
def text : Statement → Text
  | .comment identifier kind => "// " ++ identifier ++ " (" ++ kind ++ ")"
  | .create target sourceName parent =>
    target ++ " = lv_" ++ sourceName ++ "_create(" ++ parent ++ ");"
  | .call function arguments => function ++ "(" ++ Text.join ", " arguments ++ ");"
  | .gap => ""

/-- The variable that a statement creates a widget in. -/
def created? : Statement → Option Text
  | .create target _ _ => some target
  | _ => none

end Statement

end LvglForest
