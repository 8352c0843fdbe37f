import LvglForest.Decimal.Integer
import LvglForest.Value.Basic

/-!
# Operands

An argument of a setter that should be a number: an integer in decimal, or any other expression,
which is kept as it is written.
-/

namespace LvglForest

/-- An integer or the source text of an expression. -/
inductive Operand where
  | integer (n : Int)
  | token (t : Text)
  deriving DecidableEq

namespace Operand

/-- The operand that a text writes. -/
def ofSource (t : Text) : Operand :=
  match Decimal.read t.strip with
  | .ok n => .integer n
  | .error _ => .token t.strip

/-- Whether an operand is an integer. -/
def isInteger : Operand → Bool
  | .integer _ => true
  | .token _ => false

/-- An operand as a value. -/
def toValue : Operand → Value
  | .integer n => .integer n
  | .token t => .text t

/-- The integer of an operand, zero for an expression: a coordinate must be an integer. -/
def offset : Operand → Int
  | .integer n => n
  | .token _ => 0

end Operand

end LvglForest
