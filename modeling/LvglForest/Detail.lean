import LvglForest.Text.Basic

/-!
# Levels of detail

Outlines and generated source come in a verbose and a concise form. The verbose form is indented by
four spaces a level, shows where a widget was found, and puts a comment before the statements of a
widget; the concise form is indented by two spaces and has neither.
-/

namespace LvglForest

/-- How much an output shows. -/
inductive Detail where
  | verbose
  | concise
  deriving DecidableEq

/-- The indentation of one level. -/
def Detail.indent : Detail → Text
  | .verbose => "    "
  | .concise => "  "

/-- The indentation of a number of levels. -/
def Detail.indentTo (d : Detail) (depth : Nat) : Text := (List.replicate depth d.indent).flatten

end LvglForest
