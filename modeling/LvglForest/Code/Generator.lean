import LvglForest.Code.Generation

/-!
# Generation in steps

Generation can also be taken as going along a forest while three lists grow: the statements, the
variables and the skipped widgets. The statements of a widget are added when all of them are made,
and then its variable, before the widgets below it are turned to. A fault ends the way, and what was
added before it stays.
-/

namespace LvglForest

/-- What is generated so far. -/
structure Generator where
  statements : List Statement := []
  identifiers : List Text := []
  skips : List (List Nat × SkipReason) := []

/-- A step of generation. -/
abbrev Generating := EStateM Fault Generator

namespace Generator

/-- Adds the statements of a widget and its variable. -/
def add (identifier : Text) (statements : List Statement) (g : Generator) : Generator :=
  { g with statements := g.statements ++ statements, identifiers := g.identifiers ++ [identifier] }

/-- Adds a skipped widget. -/
def skip (path : List Nat) (reason : SkipReason) (g : Generator) : Generator :=
  { g with skips := g.skips ++ [(path, reason)] }

/-- Makes the statements of a widget, all of them or none. -/
def make (es : Emissions) : Generating (List Statement) :=
  match es.fault? with
  | some f => throw f
  | none => return es.statements

end Generator

mutual

/-- Generates a tree under a parent. -/
def Tree.generate (d : Detail) (parent : Text) (path : List Nat) : Tree Widget → Generating Unit
  | .node w ts =>
    match w.naming with
    | .skip reason => modify (Generator.skip path reason)
    | .fault f => throw f
    | .legal identifier => do
      let statements ← Generator.make (w.emissions d identifier parent)
      modify (Generator.add identifier statements)
      Forest.generate d identifier path 0 ts

/-- Generates trees under a parent, numbered from an index on. -/
def Forest.generate (d : Detail) (parent : Text) (path : List Nat) (index : Nat) :
    List (Tree Widget) → Generating Unit
  | [] => return
  | t :: ts => do
    Tree.generate d parent (path ++ [index]) t
    Forest.generate d parent path (index + 1) ts

end

end LvglForest
