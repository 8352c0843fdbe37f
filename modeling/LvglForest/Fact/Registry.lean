import LvglForest.Fact.Recognizer
import LvglForest.Value.Display

/-!
# Registries of recognizers

A registry keeps the recognizers of each category in the order in which they were registered. On a
line, the recognizers of a category are tried in that order until one finds a fact; one that fails
is passed over. So a line gives at most one fact per category, and no category affects another.
-/

namespace LvglForest

/-- The categories of recognizers. -/
inductive Category where
  | declaration
  | creation
  | property
  | style
  | layout
  deriving DecidableEq

namespace Category

/-- The categories in the order in which a line is tried. -/
def all : List Category := [declaration, creation, property, style, layout]

/-- The name of a category. -/
def name : Category → Text
  | declaration => "declaration"
  | creation => "creation"
  | property => "property"
  | style => "style"
  | layout => "layout"

/-- The category of a name. -/
def ofName? (t : Text) : Option Category := all.find? (·.name = t)

end Category

/-- What happens while a line is read. -/
inductive Event where
  /-- A recognizer fails on the code of a line. -/
  | failure (number : Int) (recognizer : Except Fault Text) (line : Text) (fault : Fault)
  /-- A recognizer makes a remark on the fact that follows. -/
  | remark (t : Text)
  /-- A fact is found. -/
  | fact (f : Fact)

/-- The fact of an event. -/
def Event.fact? : Event → Option Fact
  | .fact f => some f
  | _ => none

/-- Recognizers by category. -/
structure Registry where
  recognizers : Category → List Recognizer := fun _ => []

namespace Registry

/-- Adds a recognizer to a category. -/
def add (category : Category) (r : Recognizer) (registry : Registry) : Registry :=
  { recognizers := fun c =>
      if c = category then registry.recognizers c ++ [r] else registry.recognizers c }

/-- Adds a recognizer to the category of a name. -/
def register (category : Value) (r : Recognizer) (registry : Registry) : Except Fault Registry := do
  category.checkHashable
  let name ← category.display
  match category.isText name, Category.ofName? name with
  | true, some c => return registry.add c r
  | _, _ => .error (.unknownCategory name)

/-- Each recognizer with its category. -/
def catalogue (registry : Registry) : List (Category × Recognizer) :=
  Category.all.flatMap fun c => (registry.recognizers c).map (c, ·)

/-- Tries recognizers on a line until one finds a fact. -/
def tryInTurn (line : Text) (number : Int) : List Recognizer → List Event
  | [] => []
  | r :: rs =>
    match r.run line number with
    | .error f => .failure number r.name line f :: tryInTurn line number rs
    | .ok none => tryInTurn line number rs
    | .ok (some fact) => (r.remarks line number).map .remark ++ [.fact fact]

/-- What happens while all categories are tried on a line. -/
def lineEvents (registry : Registry) (line : Text) (number : Int) : List Event :=
  Category.all.flatMap fun c => tryInTurn line number (registry.recognizers c)

/-- What happens while all categories are tried on a value. On anything but a line every recognizer
fails. -/
def valueEvents (registry : Registry) (line : Value) (number : Int) : List Event :=
  match line with
  | .text t => registry.lineEvents t number
  | v =>
    registry.catalogue.map fun (_, r) =>
      .failure number r.name (v.display.toOption.getD []) (.notText v.shape)

/-- The facts of a line, at most one of each category. -/
def lineFacts (registry : Registry) (line : Text) (number : Int) : List Fact :=
  (registry.lineEvents line number).filterMap Event.fact?

/-- The registry of all recognizers of the library. -/
def standard : Registry where
  recognizers
    | .declaration => [.declaration]
    | .creation => [.creation]
    | .property => [.text, .size, .value, .range]
    | .style => [.knownStyle, .otherStyle]
    | .layout => [.align, .center, .position]

end Registry

end LvglForest
