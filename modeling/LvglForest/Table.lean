import LvglForest.Text.Basic

/-!
# Tables

A table maps texts to values and remembers the order in which its keys were first put.
-/

namespace LvglForest

/-- Values by key, in the order of the keys' first appearance. -/
abbrev Table (α : Type) := List (Text × α)

namespace Table

variable {α : Type}

/-- The value of a key. -/
def get? (key : Text) : Table α → Option α
  | [] => none
  | (k, v) :: table => if k = key then some v else get? key table

/-- Whether a key has a value. -/
def has (key : Text) (table : Table α) : Bool := (table.get? key).isSome

/-- Gives a key a value: in its place if it has one already, otherwise at the end. -/
def put (key : Text) (value : α) : Table α → Table α
  | [] => [(key, value)]
  | (k, v) :: table => if k = key then (k, value) :: table else (k, v) :: put key value table

/-- Changes the value of a key, if it has one. -/
def adjust (key : Text) (f : α → α) : Table α → Table α
  | [] => []
  | (k, v) :: table => if k = key then (k, f v) :: table else (k, v) :: adjust key f table

/-- The keys in order. -/
def keys (table : Table α) : List Text := table.map (·.1)

end Table

/-- The distinct texts of a list, in the order of their first appearance. -/
def Text.distinct : List Text → List Text
  | [] => []
  | t :: ts => t :: (Text.distinct ts).filter (· ≠ t)

end LvglForest
