import LvglForest.Value.Basic

/-!
# Kinds of widgets

The kinds that the library knows, with three names each: the name in trees and documents, the name
in the functions of the source, and the name of the class that shows such a widget. A kind that is
not known is kept under its source name; in generated source it falls back to the plain object.
-/

namespace LvglForest

/-- The known kinds of widgets. -/
inductive Kind where
  | container
  | label
  | button
  | arc
  | slider
  | bar
  | checkbox
  | switch
  | dropdown
  | image
  | textarea
  | keyboard
  | chart
  | table
  | spinner
  | roller
  | meter
  deriving DecidableEq

namespace Kind

/-- Every known kind. -/
def all : List Kind :=
  [container, label, button, arc, slider, bar, checkbox, switch, dropdown, image, textarea,
    keyboard, chart, table, spinner, roller, meter]

/-- The name of a kind in trees and documents. -/
def name : Kind → Text
  | container => "container"
  | label => "label"
  | button => "button"
  | arc => "arc"
  | slider => "slider"
  | bar => "bar"
  | checkbox => "checkbox"
  | switch => "switch"
  | dropdown => "dropdown"
  | image => "image"
  | textarea => "textarea"
  | keyboard => "keyboard"
  | chart => "chart"
  | table => "table"
  | spinner => "spinner"
  | roller => "roller"
  | meter => "meter"

/-- The name of a kind in the functions of the source. -/
def sourceName : Kind → Text
  | container => "obj"
  | button => "btn"
  | image => "img"
  | k => k.name

/-- The name of the class that shows a widget of the kind. -/
def className : Kind → Text
  | container => "LVGLContainerWidget"
  | label => "LVGLLabelWidget"
  | button => "LVGLButtonWidget"
  | arc => "LVGLArcWidget"
  | slider => "LVGLSliderWidget"
  | bar => "LVGLBarWidget"
  | checkbox => "LVGLCheckboxWidget"
  | switch => "LVGLSwitchWidget"
  | dropdown => "LVGLDropdownWidget"
  | image => "LVGLImageWidget"
  | textarea => "LVGLTextareaWidget"
  | keyboard => "LVGLKeyboardWidget"
  | chart => "LVGLChartWidget"
  | table => "LVGLTableWidget"
  | spinner => "LVGLSpinnerWidget"
  | roller => "LVGLRollerWidget"
  | meter => "LVGLMeterWidget"

/-- The kind of a name. -/
def ofName? (t : Text) : Option Kind := all.find? (·.name = t)

/-- The kind of a name in the source. -/
def ofSourceName? (t : Text) : Option Kind := all.find? (·.sourceName = t)

/-- The kind of a class name. -/
def ofClassName? (t : Text) : Option Kind := all.find? (·.className = t)

/-- The kind that a value names. -/
def ofValue? : Value → Option Kind
  | .text t => ofName? t
  | _ => none

/-- The kind of a name, the container for a name that is not known. -/
def orContainer (kind? : Option Kind) : Kind := kind?.getD container

/-- Widgets of the kind have a text. -/
def hasText : Kind → Bool
  | label | checkbox | textarea | dropdown => true
  | _ => false

/-- Widgets of the kind have a number and a range. -/
def hasValue : Kind → Bool
  | arc | slider | bar => true
  | _ => false

/-- Changes of the number of such a widget can be animated. -/
def isAnimated : Kind → Bool
  | slider | bar => true
  | _ => false

end Kind

end LvglForest
