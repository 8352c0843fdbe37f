import LvglForest.Value.Basic

/-!
# Equality of values

Two values are equal if they show the same data: truth values count as the numbers 0 and 1, an
integer equals the float of its size, and records are compared field by field in any order.
-/

namespace LvglForest

namespace Binary64

/-- Whether a float has the size of an integer. -/
def isInteger (x : Binary64) (n : Int) : Bool :=
  match x with
  | .finite negative m e =>
    let (num, den) := scaled m 1 (-e)
    let num : Int := if negative then -(num : Int) else num
    num = n * den
  | _ => false

/-- Whether two floats are equal. The two zeros are. -/
def equal : Binary64 → Binary64 → Bool
  | .finite _ 0 _, .finite _ 0 _ => true
  | x, y => x = y

end Binary64

namespace Value

/-- The integer that a truth value or an integer counts as. -/
def asInteger? : Value → Option Int
  | .truth b => some (if b then 1 else 0)
  | .integer n => some n
  | _ => none

mutual

/-- Whether two values are equal. -/
def equal : Value → Value → Bool
  | .null, .null => true
  | .text t, .text u => t = u
  | .real x, .real y => x.equal y
  | .list vs, .list ws => equalItems vs ws
  | .record fs, .record gs => fs.length = gs.length && fieldsWithin fs gs
  | .real x, w => (w.asInteger?.map x.isInteger).getD false
  | v, .real y => (v.asInteger?.map y.isInteger).getD false
  | v, w =>
    match v.asInteger?, w.asInteger? with
    | some m, some n => m = n
    | _, _ => false

/-- Whether two lists of values are equal item by item. -/
def equalItems : List Value → List Value → Bool
  | [], [] => true
  | v :: vs, w :: ws => equal v w && equalItems vs ws
  | _, _ => false

/-- Whether each of the fields has an equal one in a table. -/
def fieldsWithin : List (Text × Value) → Table Value → Bool
  | [], _ => true
  | (k, v) :: fs, gs =>
    match gs.get? k with
    | some w => equal v w && fieldsWithin fs gs
    | none => false

end

end Value

end LvglForest
