import LvglForest.Source.Color
import LvglForest.Value.Display

/-!
# Styles

The styles set on one widget. Five style properties are known and come first, in a fixed order;
every other one follows in the order in which it was first set. A value is the source expression
that sets it and is never evaluated, except that colours are kept without their wrapping call and
fonts without the address operator. Source and documents give texts; who edits a widget may set any
value, and a known property is taken back by setting it to null.
-/

namespace LvglForest

/-- The known style properties. -/
inductive StyleKey where
  | bgColor
  | textColor
  | textFont
  | radius
  | borderOpa
  deriving DecidableEq

namespace StyleKey

/-- The known style properties in the order in which they are listed. -/
def all : List StyleKey := [bgColor, textColor, textFont, radius, borderOpa]

/-- The name of a property, which also ends the name of its setter. -/
def name : StyleKey → Text
  | bgColor => "bg_color"
  | textColor => "text_color"
  | textFont => "text_font"
  | radius => "radius"
  | borderOpa => "border_opa"

/-- The property of a name. -/
def ofName? (t : Text) : Option StyleKey := all.find? (·.name = t)

/-- The value that is kept for an argument of the property's setter. -/
def ofSource : StyleKey → Text → Text
  | bgColor, t | textColor, t => Color.ofSource t
  | textFont, .char '&' :: t => Text.strip t
  | _, t => t

/-- The argument of the property's setter for a kept value. -/
def toSource : StyleKey → Text → Text
  | bgColor, t | textColor, t => Color.toSource t
  | textFont, t => if t.head? = some (.char '&') then t else .char '&' :: t
  | _, t => t

/-- The argument of the property's setter for any value. Colours and fonts must be texts. -/
def argument (k : StyleKey) (v : Value) : Except Fault Text :=
  match v with
  | .text t => .ok (k.toSource t)
  | v =>
    match k with
    | bgColor | textColor => .error (.notText v.shape)
    | textFont => .error (.noMember v.shape.name "startswith")
    | radius | borderOpa => v.display

end StyleKey

/-- The styles of a widget. -/
structure Styles where
  /-- The known properties. -/
  known : StyleKey → Option Value := fun _ => none
  /-- All other properties. -/
  extra : Table Value := []

namespace Styles

/-- The value of a property. -/
def get (key : Text) (s : Styles) : Option Value :=
  match StyleKey.ofName? key with
  | some k => s.known k
  | none => s.extra.get? key

/-- Sets a property. -/
def set (key : Text) (value : Value) (s : Styles) : Styles :=
  match StyleKey.ofName? key with
  | some k =>
    let value := if value.isNull then none else some value
    { s with known := fun j => if j = k then value else s.known j }
  | none => { s with extra := s.extra.put key value }

/-- The properties that are set, with their values. -/
def items (s : Styles) : List (Text × Value) :=
  (StyleKey.all.filterMap fun k => (s.known k).map (k.name, ·)) ++ s.extra

/-- The styles as a record. -/
def toValue (s : Styles) : Value := .record s.items

/-- Sets properties one after the other from the fields of a record, in which null sets nothing and
every other value counts as it shows. -/
def ofFields (s : Styles) : List (Text × Value) → Except Fault Styles
  | [] => .ok s
  | (k, v) :: fs =>
    if v.isNull then ofFields s fs
    else
      match v.display with
      | .error f => .error f
      | .ok t => ofFields (s.set k (.text t)) fs

/-- The styles that a record sets. -/
def ofValue (v : Value) : Except Fault Styles :=
  match v.fields with
  | .error f => .error f
  | .ok fs => ofFields {} fs

/-- The argument of the setter of any property for a kept value. -/
def argument (key : Text) (value : Value) : Except Fault Text :=
  match StyleKey.ofName? key with
  | some k => k.argument value
  | none => value.display

end Styles

end LvglForest
