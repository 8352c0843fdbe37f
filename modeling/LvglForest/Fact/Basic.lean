import LvglForest.Decimal.Digits
import LvglForest.Source.Operand
import LvglForest.Widget.Size

/-!
# Facts

A fact is what one call in one line of source says about one widget: that it is declared, that it is
created, or that a property of it is set. A fact names the widget by its identifier. What source
says is made of texts and integers; other values can be put into facts as well, and a property that
is set to null counts as never set. The line of a fact is a number, and no more is made of it than
to show it.
-/

namespace LvglForest

/-- What a fact says. -/
inductive Assertion where
  /-- A variable for the widget is declared with this type. -/
  | declared (type : Value)
  /-- The widget is created; the parent is kept as it is written. -/
  | created (kind : Value) (sourceName : Text) (parent : Value)
  | text (t : Value)
  | size (width height : Size)
  | value (v : Value)
  | range (min max : Value)
  | style (key : Text) (value : Value)
  | align (keyword x y : Value)
  | center
  | position (x y : Value)

/-- An assertion about the widget of an identifier, made in a line. -/
structure Fact where
  identifier : Text
  line : Value
  assertion : Assertion

/-- The name of what a fact says. -/
def Assertion.name : Assertion → Text
  | .declared _ => "Declared"
  | .created _ _ _ => "Created"
  | .text _ => "SetText"
  | .size _ _ => "SetSize"
  | .value _ => "SetValue"
  | .range _ _ => "SetRange"
  | .style _ _ => "SetStyle"
  | .align _ _ _ => "SetAlign"
  | .center => "SetCenter"
  | .position _ _ => "SetPos"

/-- What is shown of an assertion beside its name. A number with too many digits cannot be shown. -/
def Assertion.detail : Assertion → Except Fault Text
  | .created kind _ parent => do
    let kind ← kind.display
    let parent ← parent.display
    return ", " ++ kind ++ " <- " ++ parent
  | .style key v => v.display.map fun v => ", " ++ key ++ "=" ++ v
  | _ => .ok ""

/-- A fact in one line, for the log. -/
def Fact.describe (f : Fact) : Except Fault Text := do
  let detail ← f.assertion.detail
  let line ← f.line.display
  return "L" ++ line ++ " " ++ f.assertion.name ++ "(" ++ f.identifier ++ detail ++ ")"

end LvglForest
