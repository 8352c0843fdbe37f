import LvglForest.Fact.Basic
import LvglForest.Source.Literal
import LvglForest.Source.Pattern
import LvglForest.Widget.Kind
import LvglForest.Widget.Style

/-!
# Recognizers

A recognizer looks for one kind of call in a line of source and reads a fact off its arguments. The
widget that a setter changes must be given by a plain identifier; calls on any other expression say
nothing. A recognizer fails where an argument cannot be converted.
-/

namespace LvglForest

/-- Something that may find a fact in a line of a given number. -/
structure Recognizer where
  /-- The name under which a failure is reported. Not everything that can be called has one. -/
  name : Except Fault Text
  run : Text → Int → Except Fault (Option Fact)
  /-- Remarks for the log on a fact that is found. -/
  remarks : Text → Int → List Text := fun _ _ => []

namespace Recognizer

/-! ## Patterns -/

/-- `target = lv_…_create(` -/
def creationPattern : CallPattern := .assignedCall (.between "lv_" "_create")

/-- `lv_…_set_text(` -/
def textPattern : CallPattern := .call (.between "lv_" "_set_text")

/-- `lv_obj_set_size(` -/
def sizePattern : CallPattern := .call (.exactly "lv_obj_set_size")

/-- `lv_…_set_value(` -/
def valuePattern : CallPattern := .call (.between "lv_" "_set_value")

/-- `lv_…_set_range(` -/
def rangePattern : CallPattern := .call (.between "lv_" "_set_range")

/-- The setter of a known style. -/
def knownStylePattern : CallPattern :=
  .call (.oneOf "lv_obj_set_style_" (StyleKey.all.map StyleKey.name))

/-- The setter of any style. -/
def anyStylePattern : CallPattern := .call (.startingWith "lv_obj_set_style_")

/-- `lv_obj_align(` -/
def alignPattern : CallPattern := .call (.exactly "lv_obj_align")

/-- `lv_obj_center(` -/
def centerPattern : CallPattern := .call (.exactly "lv_obj_center")

/-- `lv_obj_set_pos(` -/
def positionPattern : CallPattern := .call (.exactly "lv_obj_set_pos")

/-- The rest of a text after blanks and a given word. -/
def skip? (word t : Text) : Option Text := word.isPrefixOf? t.stripStart

/-- The identifier that a line declares as a pointer to a widget without value. -/
def declared? (line : Text) : Option Text := do
  let line :=
    match ("static" : Text).isPrefixOf? line with
    | some (p :: r) => if p.isBlank then Text.stripStart r else line
    | _ => line
  let r ← ("lv_obj_t" : Text).isPrefixOf? line
  let r ← skip? "*" r
  let r := Text.stripStart r
  let identifier := r.takeWhile CodePoint.isWord
  let r ← skip? "=" (r.dropWhile CodePoint.isWord)
  let r ← (skip? "NULL" r).or (skip? "nullptr" r)
  let _ ← skip? ";" r
  if identifier.isEmpty then none else some identifier

/-! ## Facts of calls -/

/-- A fact from the first call that a pattern describes, if there is one. -/
def ofCall (pattern : CallPattern) (read : Call → Except Fault (Option (Text × Assertion)))
    (line : Text) (number : Int) : Except Fault (Option Fact) :=
  match pattern.find? line with
  | none => .ok none
  | some call => (read call).map (·.map fun (identifier, a) => ⟨identifier, .integer number, a⟩)

/-- A fact about the widget of the first argument, if that is an identifier. -/
def about (target : Text) (a : Assertion) : Option (Text × Assertion) :=
  if target.isIdentifier then some (target, a) else none

/-- Reads the declaration of a line. -/
def readDeclaration (line : Text) (number : Int) : Except Fault (Option Fact) :=
  .ok ((declared? line).map fun identifier =>
    ⟨identifier, .integer number, .declared (.text "lv_obj_t")⟩)

/-- Reads a creation. A kind that is not known is kept under its source name. -/
def readCreation (call : Call) : Except Fault (Option (Text × Assertion)) :=
  match call.groups with
  | [target, sourceName] =>
    let kind := (Kind.ofSourceName? sourceName).elim sourceName Kind.name
    let parent := call.arguments.headD []
    .ok (some (target, .created (.text kind) sourceName (.text parent)))
  | _ => .ok none

/-- Reads a text. -/
def readText (call : Call) : Except Fault (Option (Text × Assertion)) :=
  match call.arguments with
  | [target, literal] =>
    (Literal.decode? literal).map fun text? => text?.bind fun t => about target (.text (.text t))
  | _ => .ok none

/-- Reads a size. -/
def readSize (call : Call) : Except Fault (Option (Text × Assertion)) :=
  match call.arguments with
  | [target, width, height] =>
    if target.isIdentifier then do
      let w ← Size.ofSource width
      let h ← Size.ofSource height
      return some (target, .size w h)
    else .ok none
  | _ => .ok none

/-- Reads a number. Arguments after it are ignored. -/
def readValue (call : Call) : Except Fault (Option (Text × Assertion)) :=
  match call.arguments with
  | target :: v :: _ => .ok (about target (.value (Operand.ofSource v).toValue))
  | _ => .ok none

/-- Reads a range. -/
def readRange (call : Call) : Except Fault (Option (Text × Assertion)) :=
  match call.arguments with
  | [target, min, max] =>
    .ok (about target (.range (Operand.ofSource min).toValue (Operand.ofSource max).toValue))
  | _ => .ok none

/-- Reads a known style. -/
def readKnownStyle (call : Call) : Except Fault (Option (Text × Assertion)) :=
  match call.groups, call.arguments with
  | [name], target :: v :: _ =>
    .ok ((StyleKey.ofName? name).bind fun key =>
      about target (.style key.name (.text (key.ofSource v))))
  | _, _ => .ok none

/-- Reads a style that is not known. -/
def readOtherStyle (call : Call) : Except Fault (Option (Text × Assertion)) :=
  match call.groups, call.arguments with
  | [name], target :: v :: _ =>
    if (StyleKey.ofName? name).isSome then .ok none else .ok (about target (.style name (.text v)))
  | _, _ => .ok none

/-- The offset that an argument gives, as a value. -/
def offset (t : Text) : Value := .integer (Operand.ofSource t).offset

/-- Reads an alignment. -/
def readAlign (call : Call) : Except Fault (Option (Text × Assertion)) :=
  match call.arguments with
  | [target, keyword, x, y] =>
    .ok (about target (.align (.text keyword) (offset x) (offset y)))
  | _ => .ok none

/-- A remark on offsets of an alignment that are no integers. -/
def alignRemarks (line : Text) (number : Int) : List Text :=
  match (alignPattern.find? line).map Call.arguments with
  | some [_, _, x, y] =>
    if (Operand.ofSource x).isInteger ∧ (Operand.ofSource y).isInteger then []
    else ["L" ++ Decimal.ofInt number ++ ": 非整数偏移 (" ++ x ++ ", " ++ y ++ ") 按 0 处理"]
  | _ => []

/-- Reads a centring. -/
def readCenter (call : Call) : Except Fault (Option (Text × Assertion)) :=
  match call.arguments with
  | [target] => .ok (about target .center)
  | _ => .ok none

/-- Reads a position. -/
def readPosition (call : Call) : Except Fault (Option (Text × Assertion)) :=
  match call.arguments with
  | [target, x, y] =>
    .ok (about target (.position (offset x) (offset y)))
  | _ => .ok none

/-! ## The recognizers -/

/-- Finds declarations. -/
def declaration : Recognizer := { name := .ok "recognize_declaration", run := readDeclaration }

/-- Finds creations. -/
def creation : Recognizer :=
  { name := .ok "recognize_creation", run := ofCall creationPattern readCreation }

/-- Finds setters of texts. -/
def text : Recognizer := { name := .ok "recognize_text", run := ofCall textPattern readText }

/-- Finds setters of sizes. -/
def size : Recognizer := { name := .ok "recognize_size", run := ofCall sizePattern readSize }

/-- Finds setters of numbers. -/
def value : Recognizer := { name := .ok "recognize_value", run := ofCall valuePattern readValue }

/-- Finds setters of ranges. -/
def range : Recognizer := { name := .ok "recognize_range", run := ofCall rangePattern readRange }

/-- Finds setters of known styles. -/
def knownStyle : Recognizer :=
  { name := .ok "recognize_known_style", run := ofCall knownStylePattern readKnownStyle }

/-- Finds setters of all other styles. -/
def otherStyle : Recognizer :=
  { name := .ok "recognize_other_style", run := ofCall anyStylePattern readOtherStyle }

/-- Finds alignments. -/
def align : Recognizer :=
  { name := .ok "recognize_align", run := ofCall alignPattern readAlign, remarks := alignRemarks }

/-- Finds centrings. -/
def center : Recognizer :=
  { name := .ok "recognize_center", run := ofCall centerPattern readCenter }

/-- Finds setters of positions. -/
def position : Recognizer :=
  { name := .ok "recognize_pos", run := ofCall positionPattern readPosition }

end Recognizer

end LvglForest
