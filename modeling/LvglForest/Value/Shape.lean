import LvglForest.Text.Basic

/-!
# Shapes of values

The seven shapes that a value of the exchange format can have, and how messages name them.
-/

namespace LvglForest

/-- What kind of value a value is. -/
inductive Shape where
  | null
  | truth
  | integer
  | real
  | text
  | list
  | record
  deriving DecidableEq

/-- The name of a shape in messages. -/
def Shape.name : Shape → Text
  | .null => "NoneType"
  | .truth => "bool"
  | .integer => "int"
  | .real => "float"
  | .text => "str"
  | .list => "list"
  | .record => "dict"

end LvglForest
