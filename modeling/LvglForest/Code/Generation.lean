import LvglForest.Code.Statement
import LvglForest.Detail
import LvglForest.Project.Subject
import LvglForest.Source.Literal

/-!
# Generation

The statements that build a forest of widgets, each widget before those below it. A widget without a
legal identifier is skipped with everything below it and reported; the others are not affected. What
a kind has no setter for is left out with a warning.

Generation gives emissions in order: statements, warnings and skipped widgets. Data that no source
can be generated from is a fault; what was emitted before it still counts for the log.
-/

namespace LvglForest

/-- Why a widget is skipped. -/
inductive SkipReason where
  | unnamed
  | illegalName (identifier : Text)

/-- The wording of a reason. -/
def SkipReason.message : SkipReason → Text
  | .unnamed => "控件缺少标识符，已跳过该控件及其子控件"
  | .illegalName identifier => "标识符 " ++ identifier.quoted ++ " 不是合法的 C 标识符"

/-- What a kind may have no setter for. -/
inductive Setting where
  | text
  | range
  | value

/-- What generation gives. -/
inductive Emission where
  | statement (s : Statement)
  /-- A setting is left out, since the kind has no setter for it. -/
  | ignored (identifier kind : Text) (setting : Setting)
  /-- The widget at the end of a path of child numbers is skipped. -/
  | skipped (path : List Nat) (reason : SkipReason)

/-- Emissions in order, up to a fault if there is one. -/
abbrev Emissions := List (Except Fault Emission)

/-- What an identifier is to generation. -/
inductive Naming where
  | legal (identifier : Text)
  | skip (reason : SkipReason)
  | fault (f : Fault)

namespace Widget

/-- Whether a widget can be generated. -/
def naming (w : Widget) : Naming :=
  if !w.identifier.isTrue then .skip .unnamed
  else
    match w.identifier with
    | .text t => if t.isIdentifierLine then .legal t else .skip (.illegalName t)
    | v => .fault (.notText v.shape)

/-! ## Statements of one widget -/

/-- A call as an emission, if its arguments can be written. -/
def emitCall (function : Text) (arguments : Except Fault (List Text)) : Except Fault Emission :=
  arguments.map fun args => .statement (.call function args)

/-- The statement that sets the size, unless one of the two was never set. -/
def sizeEmissions (identifier : Text) (w : Widget) : Emissions :=
  if w.width.isAuto || w.height.isAuto then []
  else
    [emitCall "lv_obj_set_size" do
      let width ← w.width.toSource
      let height ← w.height.toSource
      return [identifier, width, height]]

/-- The statement that places the widget. -/
def placeEmission (identifier : Text) (w : Widget) : Except Fault Emission :=
  if w.align.isNull then
    emitCall "lv_obj_set_pos" do
      let x ← w.x.display
      let y ← w.y.display
      return [identifier, x, y]
  else if w.align.isText Anchor.middle.keyword && w.x.isZero && w.y.isZero then
    emitCall "lv_obj_center" (.ok [identifier])
  else
    emitCall "lv_obj_align" do
      let align ← w.align.display
      let x ← w.x.display
      let y ← w.y.display
      return [identifier, align, x, y]

/-- The emission for a setting: a call where the kind has the setter, otherwise a warning. -/
def settingEmission (identifier : Text) (w : Widget) (setting : Setting) (has : Bool)
    (function : Text) (arguments : Except Fault (List Text)) : Except Fault Emission :=
  if has then emitCall function arguments
  else .ok (.ignored identifier (w.kind.display.toOption.getD []) setting)

/-- The statements that set the text, the range and the value. -/
def propertyEmissions (identifier : Text) (w : Widget) : Emissions :=
  let kind? := Kind.ofValue? w.kind
  let stem := ("lv_" : Text) ++ (Kind.orContainer kind?).sourceName
  let hasText := kind?.elim false Kind.hasText
  let hasValue := kind?.elim false Kind.hasValue
  let text : Emissions :=
    if w.text.isNull then []
    else
      [settingEmission identifier w .text hasText (stem ++ "_set_text") do
        let t ← w.text.characters
        return [identifier, Literal.encode t]]
  let range : Emissions :=
    if w.rangeMin.isNull || w.rangeMax.isNull then []
    else
      [settingEmission identifier w .range hasValue (stem ++ "_set_range") do
        let min ← w.rangeMin.display
        let max ← w.rangeMax.display
        return [identifier, min, max]]
  let value : Emissions :=
    if w.value.isNull then []
    else
      [settingEmission identifier w .value hasValue (stem ++ "_set_value") do
        let v ← w.value.display
        let isAnimated := kind?.elim false Kind.isAnimated
        return [identifier, v] ++ (if isAnimated then [("LV_ANIM_OFF" : Text)] else [])]
  text ++ range ++ value

/-- The statements that set the styles. -/
def styleEmissions (identifier : Text) (w : Widget) : Emissions :=
  w.styles.items.map fun (key, v) =>
    emitCall ("lv_obj_set_style_" ++ key)
      ((Styles.argument key v).map fun argument => [identifier, argument, "0"])

/-- The statement that creates the widget, after a comment where one is wanted. -/
def creationEmissions (d : Detail) (identifier parent : Text) (w : Widget) : Emissions :=
  match w.kind.checkHashable with
  | .error f => [.error f]
  | .ok _ =>
    let comment : Emissions :=
      match d with
      | .verbose => [w.kind.display.map fun kind => .statement (.comment identifier kind)]
      | .concise => []
    let sourceName := (Kind.orContainer (Kind.ofValue? w.kind)).sourceName
    comment ++ [.ok (.statement (.create identifier sourceName parent))]

/-- The emissions of a widget of a legal name, without those below it. -/
def emissions (d : Detail) (identifier parent : Text) (w : Widget) : Emissions :=
  w.creationEmissions d identifier parent ++ w.sizeEmissions identifier ++
    [w.placeEmission identifier] ++ w.propertyEmissions identifier ++
    w.styleEmissions identifier ++ [.ok (.statement .gap)]

end Widget

/-! ## Forests -/

mutual

/-- The emissions of a tree under a parent. -/
def Tree.emissions (d : Detail) (parent : Text) (path : List Nat) : Tree Widget → Emissions
  | .node w ts =>
    match w.naming with
    | .skip reason => [.ok (.skipped path reason)]
    | .fault f => [.error f]
    | .legal identifier =>
      w.emissions d identifier parent ++ Forest.emissions d identifier path 0 ts

/-- The emissions of trees under a parent, numbered from an index on. -/
def Forest.emissions (d : Detail) (parent : Text) (path : List Nat) (index : Nat) :
    List (Tree Widget) → Emissions
  | [] => []
  | t :: ts =>
    Tree.emissions d parent (path ++ [index]) t ++ Forest.emissions d parent path (index + 1) ts

end

namespace Emissions

/-- The fault that ends the emissions. -/
def fault? : Emissions → Option Fault
  | [] => none
  | .error f :: _ => some f
  | .ok _ :: es => fault? es

/-- What is emitted before a fault. -/
def completed : Emissions → List Emission
  | [] => []
  | .error _ :: _ => []
  | .ok e :: es => e :: completed es

/-- The statements. -/
def statements (es : Emissions) : List Statement :=
  es.completed.filterMap fun
    | .statement s => some s
    | _ => none

/-- The source of the statements. -/
def code (es : Emissions) : Text := Text.join "\n" (es.statements.map Statement.text)

/-- The variables that widgets are created in, in order. The list of them that grows in generation
in steps is the same where no fault ends it, and otherwise may lack the last one. -/
def identifiers (es : Emissions) : List Text := es.statements.filterMap Statement.created?

/-- The paths of the skipped widgets, with the reasons. -/
def skips (es : Emissions) : List (List Nat × SkipReason) :=
  es.completed.filterMap fun
    | .skipped path reason => some (path, reason)
    | _ => none

end Emissions

/-- A skipped widget for a report: its path below a name, and the reason in words. -/
structure Issue where
  path : Text
  message : Text
  deriving DecidableEq

/-- A path of child numbers below a name. -/
def pathText (root : Text) (path : List Nat) : Text :=
  root ++ path.flatMap fun n => .char '/' :: Decimal.ofNat n

/-- The reports on skipped widgets. -/
def Emissions.issues (root : Text) (es : Emissions) : List Issue :=
  es.skips.map fun (path, reason) => ⟨pathText root path, reason.message⟩

/-- The log record of an emission, if it makes one. -/
def Emission.record? (root : Text) : Emission → Option LogRecord
  | .statement _ => none
  | .ignored identifier kind setting =>
    let (wording, name) : Text × Text :=
      match setting with
      | .text => ("文本", "text")
      | .range => ("范围", "range")
      | .value => ("数值", "value")
    some
      { level := .warning, source := .generation
        text := identifier ++ " (" ++ kind ++ ") 没有" ++ wording ++ "设置函数，已忽略 " ++ name }
  | .skipped path reason =>
    some
      { level := .warning, source := .generation
        text := "跳过控件 " ++ pathText root path ++ ": " ++ reason.message }

/-- The log of emissions. -/
def Emissions.log (root : Text) (es : Emissions) : List LogRecord :=
  es.completed.filterMap (Emission.record? root)

/-! ## Subjects -/

/-- The emissions of a subject, and the name that its paths start with. -/
structure Generation where
  root : Text
  emissions : Emissions

namespace Generation

/-- The emissions of subjects that should be widgets. -/
def ofWidgets (d : Detail) (parent : Text) (index : Nat) : List Subject → Emissions
  | [] => []
  | s :: ss =>
    (match s.asWidget with
      | .ok t => Tree.emissions d parent [index] t
      | .error f => [.error f]) ++ ofWidgets d parent (index + 1) ss

/-- The generation of a screen. The name of a screen without widgets is never shown. -/
def ofScreen (d : Detail) (parent : Text) (s : Screen) : Generation :=
  match s.widgets, s.name.display with
  | [], _ => ⟨[], []⟩
  | _, .error f => ⟨[], [.error f]⟩
  | ts, .ok root => ⟨root, Forest.emissions d parent [] 0 ts⟩

/-- The generation of a subject under a parent. -/
def ofSubject (d : Detail) (parent : Text) (s : Subject) : Except Fault Generation :=
  match s with
  | .screen s => .ok (ofScreen d parent s)
  | .list items => .ok ⟨[], ofWidgets d parent 0 items⟩
  | .widget t => .ok ⟨[], Tree.emissions d parent [0] t⟩
  | .parsed _ | .other _ => .error (.notAccepted .generation s.fullTypeName)

end Generation

end LvglForest
