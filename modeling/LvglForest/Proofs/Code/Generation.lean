import LvglForest.Proofs.Code.Statement
import LvglForest.Proofs.Forest

/-!
# What generated code says

A widget that source can express (`Widget.IsExpressible`) is generated without a fault, a warning or
a skipped setting, and what its lines say (`Widget.assertions`) is that it is created under its
parent and then has its properties set one by one. Emissions that say something are closed under
putting one list behind another (`Emissions.Say.append`), so this carries over from the statements
of a widget to the widget (`Widget.say_emissions`) and by induction to a forest
(`Forest.say_emissions`).
-/

namespace LvglForest

open Extraction Arguments

/-! ## Emissions that say something -/

/-- A statement as a line of a function. -/
def Statement.line (d : Detail) (s : Statement) : Text :=
  if s.text.isEmpty then [] else d.indent ++ s.text

theorem Detail.isBlank_indent (d : Detail) : ∀ p ∈ d.indent, p.isBlank = true := by
  cases d <;> decide

theorem Detail.inLine_indent (d : Detail) : d.indent.InLine := by
  cases d <;> decide

/-- Emissions of statements only, the variables they create widgets in, and what their lines say. -/
inductive Emissions.Say (d : Detail) : Emissions → List Text → List (Text × Assertion) → Prop
  | nil : Say d [] [] []
  | cons {s : Statement} {said : List (Text × Assertion)} {es : Emissions} {ids : List Text}
      {saids : List (Text × Assertion)} (hs : Says (s.line d) said) (h : Say d es ids saids) :
      Say d (.ok (.statement s) :: es) (s.created?.toList ++ ids) (said ++ saids)

namespace Emissions.Say

variable {d : Detail}

theorem append {es es' : Emissions} {ids ids' : List Text} {said said' : List (Text × Assertion)}
    (h : Say d es ids said) (h' : Say d es' ids' said') :
    Say d (es ++ es') (ids ++ ids') (said ++ said') := by
  induction h with
  | nil => exact h'
  | cons hs _ ih =>
    rw [List.cons_append, List.append_assoc, List.append_assoc]
    exact .cons hs ih

theorem single {s : Statement} {said : List (Text × Assertion)} (hs : Says (s.line d) said) :
    Say d [.ok (.statement s)] s.created?.toList said := by
  have h := cons hs .nil
  rwa [List.append_nil, List.append_nil] at h

/-- A line with a call of a setter. -/
theorem call {f a : Text} {args : List Text} (hf : f.IsWord) (hlv : ("lv_" : Text) <+: f)
    (hargs : ∀ x ∈ a :: args, IsToken x) :
    Say d [.ok (.statement (.call f (a :: args)))] [] (Recognizer.saying f (a :: args)) := by
  obtain ⟨p, t, rfl⟩ := List.exists_cons_of_ne_nil hf.ne_nil
  exact single (s := .call (p :: t) (a :: args))
    (Says.call d.isBlank_indent d.inLine_indent hf hlv hargs)

theorem setter {f id t : Text} (hf : f.IsWord) (hlv : ("lv_" : Text) <+: f)
    (hsets : Recognizer.SetsText f) (hid : id.isIdentifier = true) (ht : Literal.IsDecoded t)
    (hbreak : Literal.HasNoWideBreak t) (hno : ¬ ("lv_" : Text) <:+: t) :
    Say d [.ok (.statement (.call f [id, Literal.encode t]))] [] [(id, .text (.text t))] := by
  obtain ⟨p, w, rfl⟩ := List.exists_cons_of_ne_nil hf.ne_nil
  exact single (s := .call (p :: w) [id, Literal.encode t])
    (Says.setter d.isBlank_indent d.inLine_indent hf hlv hsets hid ht hbreak hno)

/-! What such emissions come to. -/

theorem fault?_eq_none {es : Emissions} {ids : List Text} {said : List (Text × Assertion)}
    (h : Say d es ids said) : es.fault? = none := by
  induction h with
  | nil => rfl
  | cons _ _ ih => exact ih

theorem skips_eq_nil {es : Emissions} {ids : List Text} {said : List (Text × Assertion)}
    (h : Say d es ids said) : es.skips = [] := by
  induction h with
  | nil => rfl
  | cons _ _ ih => exact ih

theorem identifiers_eq {es : Emissions} {ids : List Text} {said : List (Text × Assertion)}
    (h : Say d es ids said) : es.identifiers = ids := by
  induction h with
  | nil => rfl
  | @cons s said es ids saids _ _ ih =>
    have hstatements : Emissions.statements (.ok (.statement s) :: es) = s :: es.statements := rfl
    rw [identifiers, hstatements, List.filterMap_cons, ← ih]
    cases s.created? <;> rfl

/-- The lines of the statements say what the emissions say. -/
theorem forall₂_says {es : Emissions} {ids : List Text} {said : List (Text × Assertion)}
    (h : Say d es ids said) :
    ∃ saids, List.Forall₂ Says (es.statements.map (Statement.line d)) saids ∧
      saids.flatten = said := by
  induction h with
  | nil => exact ⟨[], .nil, rfl⟩
  | @cons s said es ids saids hs _ ih =>
    obtain ⟨others, hothers, rfl⟩ := ih
    exact ⟨said :: others, .cons hs hothers, rfl⟩

theorem inLine_text {es : Emissions} {ids : List Text} {said : List (Text × Assertion)}
    (h : Say d es ids said) : ∀ s ∈ es.statements, s.text.InLine := by
  induction h with
  | nil => exact fun s hs => nomatch hs
  | @cons s said es ids saids hs _ ih =>
    have hstatements : Emissions.statements (.ok (.statement s) :: es) = s :: es.statements := rfl
    rw [hstatements, List.forall_mem_cons]
    refine ⟨?_, ih⟩
    have hline := hs.inLine
    unfold Statement.line at hline
    split at hline
    · next hempty =>
      rw [List.isEmpty_iff.1 hempty]
      exact fun p hp => nomatch hp
    · exact fun p hp => hline p (List.mem_append_right _ hp)

/-- Without code there is no statement, or one without a text, and nothing is said. -/
theorem eq_nil_of_code {es : Emissions} {ids : List Text} {said : List (Text × Assertion)}
    (h : Say d es ids said) (hcode : es.code = []) : said = [] := by
  cases h with
  | nil => rfl
  | @cons s said es ids saids hs h =>
    cases h with
    | nil =>
      have htext : s.text = [] := hcode
      rw [Statement.line, htext] at hs
      rw [hs.unique .nil]
      rfl
    | @cons s' _ es' _ _ _ _ =>
      have hjoin : Emissions.code (.ok (.statement s) :: .ok (.statement s') :: es') =
          s.text ++ "\n" ++ Text.join "\n" (s'.text :: es'.statements.map Statement.text) := rfl
      rw [hjoin, List.append_eq_nil_iff, List.append_eq_nil_iff] at hcode
      exact absurd hcode.1.2 (List.cons_ne_nil _ _)

end Emissions.Say

/-! ## Widgets that source can express -/

/-- A widget whose identifier, kind and properties are read back from what is written for them:
words and integers, texts from literals, and nothing that the kind has no setter for. -/
structure Widget.IsExpressible (w : Widget) : Prop where
  identifier : ∃ id, w.identifier = .text id ∧ id.isIdentifier = true ∧ id ≠ "parent"
  kind : ∃ k : Kind, w.kind = .text k.name ∧
    (w.text = .null ∨ k.hasText = true ∧ ∃ t, w.text = .text t ∧ Literal.IsDecoded t ∧
      Literal.HasNoWideBreak t ∧ ¬ ("lv_" : Text) <:+: t) ∧
    (w.value = .null ∨ k.hasValue = true ∧ w.value.IsOperand) ∧
    (w.rangeMin = .null ∧ w.rangeMax = .null ∨
      k.hasValue = true ∧ w.rangeMin.IsOperand ∧ w.rangeMax.IsOperand)
  size : w.width = .auto ∧ w.height = .auto ∨ w.width.IsStated ∧ w.height.IsStated
  align : w.align = .null ∨ ∃ t, w.align = .text t ∧ t.IsWord
  place : ∃ x y, w.x = .integer x ∧ w.y = .integer y ∧ Decimal.Converts x ∧ Decimal.Converts y
  known : ∀ k v, w.styles.known k = some v → ∃ t, v = .text t ∧ t.IsWord
  extra : ∀ e ∈ w.styles.extra, Recognizer.IsOtherStyle e.1 ∧ ∃ t, e.2 = .text t ∧ t.IsWord
  distinct : w.styles.extra.keys.Nodup

theorem Kind.ofValue?_name (k : Kind) : Kind.ofValue? (.text k.name) = some k := by
  rw [Kind.ofValue?]
  cases k <;> decide

theorem Value.characters_text (t : Text) : (Value.text t).characters = .ok t := by
  show (t.map fun p => Value.text [p]).mapM _ = Except.ok t
  induction t with
  | nil => rfl
  | cons p t ih =>
    rw [List.map_cons, List.mapM_cons, ih]
    rfl

namespace Widget

/-! ## What a widget says -/

/-- What is said of the place of a widget. -/
def placing (w : Widget) : Assertion :=
  if w.align.isNull then .position w.x w.y
  else if w.align.isText Anchor.middle.keyword && w.x.isZero && w.y.isZero then .center
  else .align w.align w.x w.y

/-- What is said of the text, the range and the number of a widget. -/
def settings (w : Widget) : List Assertion :=
  (if w.text.isNull then [] else [.text w.text]) ++
    (if w.rangeMin.isNull || w.rangeMax.isNull then [] else [.range w.rangeMin w.rangeMax]) ++
    (if w.value.isNull then [] else [.value w.value])

/-- All that is said of a widget below a parent. -/
def assertions (parent : Text) (w : Widget) : List Assertion :=
  [.created w.kind (Kind.orContainer (Kind.ofValue? w.kind)).sourceName (.text parent)] ++
    (if w.width.isAuto || w.height.isAuto then [] else [.size w.width w.height]) ++
    [w.placing] ++ w.settings ++ w.styles.items.map fun (key, v) => .style key v

section Say

variable (d : Detail) {id : Text} (hid : id.isIdentifier = true)
include hid

theorem isToken_identifier : IsToken id := .word (Text.isWord_of_isIdentifier hid)

theorem say_creation {parent : Text} (hparent : parent.IsWord) {w : Widget} {k : Kind}
    (hk : w.kind = .text k.name) :
    Emissions.Say d (w.creationEmissions d id parent) [id]
      [(id, .created w.kind (Kind.orContainer (Kind.ofValue? w.kind)).sourceName
        (.text parent))] := by
  have hword := Text.isWord_of_isIdentifier hid
  have hkind : Kind.ofValue? w.kind = some k := hk ▸ Kind.ofValue?_name k
  have hcreate : Emissions.Say d [.ok (.statement (.create id k.sourceName parent))] [id]
      [(id, .created (.text k.name) k.sourceName (.text parent))] := by
    obtain ⟨p, t, rfl⟩ := List.exists_cons_of_ne_nil hword.ne_nil
    exact .single (s := .create (p :: t) k.sourceName parent)
      (Says.create k hword hparent d.isBlank_indent d.inLine_indent)
  unfold creationEmissions
  rw [hkind, hk]
  cases d with
  | concise => exact hcreate
  | verbose =>
    have hname : k.name.InLine := by cases k <;> decide
    exact .append (.single (s := .comment id k.name) (Says.comment (Detail.isBlank_indent .verbose)
      (Detail.inLine_indent .verbose) hword.inLine hname)) hcreate

theorem say_size {w : Widget}
    (h : w.width = .auto ∧ w.height = .auto ∨ w.width.IsStated ∧ w.height.IsStated) :
    Emissions.Say d (w.sizeEmissions id) []
      ((if w.width.isAuto || w.height.isAuto then [] else [.size w.width w.height]).map
        (id, ·)) := by
  rcases h with ⟨hw, hh⟩ | ⟨hw, hh⟩
  · rw [sizeEmissions, hw, hh]
    exact .nil
  · obtain ⟨hwauto, wt, hwsource, hwtoken, hwread⟩ := hw.exists_token
    obtain ⟨hhauto, ht, hhsource, hhtoken, hhread⟩ := hh.exists_token
    have hargs : ∀ x ∈ [id, wt, ht], IsToken x := by
      simp only [List.forall_mem_cons]
      exact ⟨isToken_identifier hid, hwtoken, hhtoken, by simp⟩
    have hcall := Emissions.Say.call (d := d) (f := "lv_obj_set_size") (.ofList (by decide))
      (by decide) hargs
    rw [Recognizer.saying_size hid hwread hhread] at hcall
    rw [sizeEmissions, hwauto, hhauto, hwsource, hhsource]
    exact hcall

theorem say_place {w : Widget} (halign : w.align = .null ∨ ∃ t, w.align = .text t ∧ t.IsWord)
    (hplace : ∃ x y, w.x = .integer x ∧ w.y = .integer y ∧ Decimal.Converts x ∧
      Decimal.Converts y) :
    Emissions.Say d [w.placeEmission id] [] [(id, w.placing)] := by
  obtain ⟨x, y, hx, hy, hxc, hyc⟩ := hplace
  have hxdisplay : w.x.display = .ok (Decimal.ofInt x) := by
    rw [hx]
    exact Decimal.write_of_converts hxc
  have hydisplay : w.y.display = .ok (Decimal.ofInt y) := by
    rw [hy]
    exact Decimal.write_of_converts hyc
  have hxoffset : Recognizer.offset (Decimal.ofInt x) = w.x := by
    rw [Recognizer.offset, Operand.ofSource_ofInt hxc, hx]
    rfl
  have hyoffset : Recognizer.offset (Decimal.ofInt y) = w.y := by
    rw [Recognizer.offset, Operand.ofSource_ofInt hyc, hy]
    rfl
  unfold placeEmission placing
  rcases halign with halign | ⟨t, halign, ht⟩
  · have hargs : ∀ z ∈ [id, Decimal.ofInt x, Decimal.ofInt y], IsToken z := by
      simp only [List.forall_mem_cons]
      exact ⟨isToken_identifier hid, .ofInt x, .ofInt y, by simp⟩
    have hcall := Emissions.Say.call (d := d) (f := "lv_obj_set_pos") (.ofList (by decide))
      (by decide) hargs
    rw [Recognizer.saying_position hid, hxoffset, hyoffset] at hcall
    rw [halign, hxdisplay, hydisplay]
    exact hcall
  · have hnull : w.align.isNull = false := by rw [halign]; rfl
    rw [hnull, if_neg Bool.false_ne_true, if_neg Bool.false_ne_true]
    split
    · have hargs : ∀ z ∈ [id], IsToken z := by simpa using isToken_identifier hid
      have hcall := Emissions.Say.call (d := d) (f := "lv_obj_center") (.ofList (by decide))
        (by decide) hargs
      rw [Recognizer.saying_center hid] at hcall
      exact hcall
    · have hargs : ∀ z ∈ [id, t, Decimal.ofInt x, Decimal.ofInt y], IsToken z := by
        simp only [List.forall_mem_cons]
        exact ⟨isToken_identifier hid, .word ht, .ofInt x, .ofInt y, by simp⟩
      have hcall := Emissions.Say.call (d := d) (f := "lv_obj_align") (.ofList (by decide))
        (by decide) hargs
      rw [Recognizer.saying_align hid, hxoffset, hyoffset] at hcall
      rw [hxdisplay, hydisplay, halign]
      exact hcall

theorem say_text {w : Widget} (k : Kind) (h : w.text = .null ∨ k.hasText = true ∧
      ∃ t, w.text = .text t ∧ Literal.IsDecoded t ∧ Literal.HasNoWideBreak t ∧
        ¬ ("lv_" : Text) <:+: t) :
    Emissions.Say d (if w.text.isNull then [] else
      [settingEmission id w .text k.hasText (("lv_" : Text) ++ k.sourceName ++ "_set_text") do
        let t ← w.text.characters
        return [id, Literal.encode t]]) []
      ((if w.text.isNull then [] else [.text w.text]).map (id, ·)) := by
  rcases h with h | ⟨hhas, t, h, ht, hbreak, hno⟩
  · rw [h]
    exact .nil
  · have hcharacters : (Value.text t).characters = .ok t := Value.characters_text t
    have hsets := Recognizer.setsText_kind k
    rw [h, hhas, hcharacters]
    exact .setter hsets.word ⟨k.sourceName ++ "_set_text", (List.append_assoc _ _ _).symm⟩ hsets hid
      ht hbreak hno

theorem say_range {w : Widget} (k : Kind) (h : w.rangeMin = .null ∧ w.rangeMax = .null ∨
      k.hasValue = true ∧ w.rangeMin.IsOperand ∧ w.rangeMax.IsOperand) :
    Emissions.Say d (if w.rangeMin.isNull || w.rangeMax.isNull then [] else
      [settingEmission id w .range k.hasValue (("lv_" : Text) ++ k.sourceName ++ "_set_range") do
        let min ← w.rangeMin.display
        let max ← w.rangeMax.display
        return [id, min, max]]) []
      ((if w.rangeMin.isNull || w.rangeMax.isNull then []
        else [.range w.rangeMin w.rangeMax]).map (id, ·)) := by
  rcases h with ⟨hmin, hmax⟩ | ⟨hhas, hmin, hmax⟩
  · rw [hmin, hmax]
    exact .nil
  · obtain ⟨min, hminshown, hmintoken, -, hminread⟩ := hmin.exists_token
    obtain ⟨max, hmaxshown, hmaxtoken, -, hmaxread⟩ := hmax.exists_token
    have hword : (("lv_" : Text) ++ k.sourceName ++ "_set_range").IsWord :=
      k.isWord_function (.ofList (by decide))
    have hargs : ∀ x ∈ [id, min, max], IsToken x := by
      simp only [List.forall_mem_cons]
      exact ⟨isToken_identifier hid, hmintoken, hmaxtoken, by simp⟩
    have hcall := Emissions.Say.call (d := d) hword
      ⟨k.sourceName ++ "_set_range", (List.append_assoc _ _ _).symm⟩ hargs
    rw [Recognizer.saying_range hid k, hminread, hmaxread] at hcall
    rw [hmin.isNull_eq_false, hmax.isNull_eq_false, hhas, hminshown, hmaxshown]
    exact hcall

theorem say_value {w : Widget} (k : Kind)
    (h : w.value = .null ∨ k.hasValue = true ∧ w.value.IsOperand) :
    Emissions.Say d (if w.value.isNull then [] else
      [settingEmission id w .value k.hasValue (("lv_" : Text) ++ k.sourceName ++ "_set_value") do
        let v ← w.value.display
        return [id, v] ++ (if k.isAnimated then [("LV_ANIM_OFF" : Text)] else [])]) []
      ((if w.value.isNull then [] else [.value w.value]).map (id, ·)) := by
  rcases h with h | ⟨hhas, h⟩
  · rw [h]
    exact .nil
  · obtain ⟨v, hshown, htoken, -, hread⟩ := h.exists_token
    have hword : (("lv_" : Text) ++ k.sourceName ++ "_set_value").IsWord :=
      k.isWord_function (.ofList (by decide))
    have hanimation : ∀ x ∈ if k.isAnimated then [("LV_ANIM_OFF" : Text)] else [], IsToken x := by
      have htoken : IsToken "LV_ANIM_OFF" := .word (.ofList (by decide))
      split <;> simp [htoken]
    have hargs : ∀ x ∈ id :: v :: if k.isAnimated then [("LV_ANIM_OFF" : Text)] else [],
        IsToken x := by
      simp only [List.forall_mem_cons]
      exact ⟨isToken_identifier hid, htoken, hanimation⟩
    have hcall := Emissions.Say.call (d := d) hword
      ⟨k.sourceName ++ "_set_value", (List.append_assoc _ _ _).symm⟩ hargs
    rw [Recognizer.saying_value hid k, hread] at hcall
    rw [h.isNull_eq_false, hhas, hshown]
    exact hcall

theorem say_settings {w : Widget} {k : Kind} (hk : w.kind = .text k.name)
    (htext : w.text = .null ∨ k.hasText = true ∧ ∃ t, w.text = .text t ∧ Literal.IsDecoded t ∧
      Literal.HasNoWideBreak t ∧ ¬ ("lv_" : Text) <:+: t)
    (hvalue : w.value = .null ∨ k.hasValue = true ∧ w.value.IsOperand)
    (hrange : w.rangeMin = .null ∧ w.rangeMax = .null ∨
      k.hasValue = true ∧ w.rangeMin.IsOperand ∧ w.rangeMax.IsOperand) :
    Emissions.Say d (w.propertyEmissions id) [] (w.settings.map (id, ·)) := by
  have hkind : Kind.ofValue? w.kind = some k := hk ▸ Kind.ofValue?_name k
  unfold propertyEmissions settings
  rw [hkind, List.map_append, List.map_append]
  exact .append (.append (say_text d hid k htext) (say_range d hid k hrange))
    (say_value d hid k hvalue)

/-- A style is one of the known ones or has a name of its own, and its value is a word. -/
theorem say_style {key : Text} {v : Value} (hkey : (∃ k : StyleKey, key = k.name) ∨
      Recognizer.IsOtherStyle key) (hv : ∃ t, v = .text t ∧ t.IsWord) :
    Emissions.Say d [emitCall ("lv_obj_set_style_" ++ key)
      ((Styles.argument key v).map fun argument => [id, argument, "0"])] []
      [(id, .style key v)] := by
  obtain ⟨t, rfl, ht⟩ := hv
  have hzero : IsToken "0" := .word (.ofList (by decide))
  rcases hkey with ⟨k, rfl⟩ | hkey
  · obtain ⟨htoken, hread⟩ := k.ofSource_toSource ht
    have hargs : ∀ x ∈ [id, k.toSource t, "0"], IsToken x := by
      simp only [List.forall_mem_cons]
      exact ⟨isToken_identifier hid, htoken, hzero, by simp⟩
    have hword : (("lv_obj_set_style_" : Text) ++ k.name).IsWord :=
      ⟨by cases k <;> decide, by cases k <;> decide⟩
    have hcall := Emissions.Say.call (d := d) hword
      ((show ("lv_" : Text) <+: "lv_obj_set_style_" by decide).trans (List.prefix_append _ _)) hargs
    rw [Recognizer.saying_knownStyle hid k, hread] at hcall
    rw [Styles.argument, k.ofName?_name]
    exact hcall
  · have hargs : ∀ x ∈ [id, t, "0"], IsToken x := by
      simp only [List.forall_mem_cons]
      exact ⟨isToken_identifier hid, .word ht, hzero, by simp⟩
    have hstem : Text.IsWord "lv_obj_set_style_" := .ofList (by decide)
    have hcall := Emissions.Say.call (d := d) (hstem.append hkey.word)
      ((show ("lv_" : Text) <+: "lv_obj_set_style_" by decide).trans (List.prefix_append _ _)) hargs
    rw [Recognizer.saying_otherStyle hid hkey] at hcall
    rw [Styles.argument, hkey.unknown]
    exact hcall

theorem say_styles {w : Widget}
    (hknown : ∀ k v, w.styles.known k = some v → ∃ t, v = .text t ∧ t.IsWord)
    (hextra : ∀ e ∈ w.styles.extra, Recognizer.IsOtherStyle e.1 ∧ ∃ t, e.2 = .text t ∧ t.IsWord) :
    Emissions.Say d (w.styleEmissions id) []
      ((w.styles.items.map fun (key, v) => Assertion.style key v).map (id, ·)) := by
  have hitems : ∀ e ∈ w.styles.items, ((∃ k : StyleKey, e.1 = k.name) ∨
      Recognizer.IsOtherStyle e.1) ∧ ∃ t, e.2 = .text t ∧ t.IsWord := by
    intro e he
    rcases List.mem_append.1 he with he | he
    · obtain ⟨k, -, he⟩ := List.mem_filterMap.1 he
      obtain ⟨v, hv, rfl⟩ := Option.map_eq_some_iff.1 he
      exact ⟨.inl ⟨k, rfl⟩, hknown k v hv⟩
    · exact ⟨.inr (hextra e he).1, (hextra e he).2⟩
  unfold styleEmissions
  generalize w.styles.items = items at hitems
  induction items with
  | nil => exact .nil
  | cons e items ih =>
    rw [List.forall_mem_cons] at hitems
    exact .append (say_style d hid hitems.1.1 hitems.1.2) (ih hitems.2)

end Say

/-- The name of a widget whose identifier is a text. -/
def name (w : Widget) : Text :=
  match w.identifier with
  | .text id => id
  | _ => []

/-- **A widget says all its assertions**, and nothing else. -/
theorem say_emissions (d : Detail) {parent : Text} (hparent : parent.IsWord) {w : Widget}
    (hw : w.IsExpressible) :
    Emissions.Say d (w.emissions d w.name parent) [w.name]
      ((w.assertions parent).map (w.name, ·)) := by
  obtain ⟨id, hname, hid, -⟩ := hw.identifier
  obtain ⟨k, hk, htext, hvalue, hrange⟩ := hw.kind
  have hgap : Emissions.Say d [.ok (.statement .gap)] [] [] :=
    .single (s := .gap) Extraction.Says.nil
  have hspeaks := ((((((say_creation d hid hparent hk).append (say_size d hid hw.size)).append
    (say_place d hid hw.align hw.place)).append (say_settings d hid hk htext hvalue hrange)).append
      (say_styles d hid hw.known hw.extra))).append hgap
  have hwname : w.name = id := by rw [name, hname]
  rw [hwname]
  unfold emissions assertions
  simp only [List.map_append, List.append_nil] at hspeaks ⊢
  exact hspeaks

end Widget

/-! ## Forests -/

/-- All that is said of the widgets of a forest below a parent. -/
def Widget.assertionsOf (links : List (Text × Widget)) : List (Text × Assertion) :=
  links.flatMap fun (parent, w) => (w.assertions parent).map (w.name, ·)

theorem Widget.naming_of_isExpressible {w : Widget} (hw : w.IsExpressible) :
    w.naming = .legal w.name := by
  obtain ⟨id, hname, hid, -⟩ := hw.identifier
  have hne : id ≠ [] := (Text.isWord_of_isIdentifier hid).ne_nil
  have hline : id.isIdentifierLine = true :=
    (Text.isIdentifierLine_of_isWord (Text.isWord_of_isIdentifier hid)).trans hid
  have htrue : w.identifier.isTrue = true := by
    rw [hname, Value.isTrue, Bool.not_eq_true', List.isEmpty_eq_false_iff]
    exact hne
  unfold naming name
  rw [htrue, hname]
  simp only [hline, Bool.not_true, Bool.false_eq_true, if_true, if_false]

mutual

theorem Tree.say_emissions (d : Detail) : ∀ {parent : Text} (_ : parent.IsWord) (path : List Nat)
    (t : Tree Widget) (_ : ∀ w ∈ t.toList, w.IsExpressible),
    Emissions.Say d (Tree.emissions d parent path t) (t.toList.map Widget.name)
      (Widget.assertionsOf (t.links Widget.name parent))
  | parent, hparent, path, .node w ts, h => by
    rw [Tree.toList, List.forall_mem_cons] at h
    obtain ⟨id, hname, hid, -⟩ := h.1.identifier
    have hword : w.name.IsWord := by
      rw [Widget.name, hname]
      exact Text.isWord_of_isIdentifier hid
    have hts := Forest.say_emissions d hword path 0 ts h.2
    have hemissions : Tree.emissions d parent path (.node w ts) =
        w.emissions d w.name parent ++ Forest.emissions d w.name path 0 ts := by
      rw [Tree.emissions, Widget.naming_of_isExpressible h.1]
    rw [hemissions]
    exact (Widget.say_emissions d hparent h.1).append hts

/-- **A forest says what is to be said of its widgets**, in document order. -/
theorem Forest.say_emissions (d : Detail) : ∀ {parent : Text} (_ : parent.IsWord)
    (path : List Nat) (index : Nat) (ts : List (Tree Widget))
    (_ : ∀ w ∈ Forest.toList ts, w.IsExpressible),
    Emissions.Say d (Forest.emissions d parent path index ts)
      ((Forest.toList ts).map Widget.name)
      (Widget.assertionsOf (Forest.links Widget.name parent ts))
  | _, _, _, _, [], _ => .nil
  | parent, hparent, path, index, t :: ts, h => by
    rw [Forest.toList, List.forall_mem_append] at h
    have hspeaks := (Tree.say_emissions d hparent (path ++ [index]) t h.1).append
      (Forest.say_emissions d hparent path (index + 1) ts h.2)
    rw [Forest.emissions, Forest.toList, Forest.links, List.map_append, Widget.assertionsOf,
      List.flatMap_append]
    exact hspeaks

end

/-! ## Screens -/

/-- A screen whose widgets are expressible and have different identifiers. -/
structure Screen.IsExpressible (s : Screen) : Prop where
  name : ∃ name, s.name = .text name
  widgets : ∀ w ∈ Forest.toList s.widgets, w.IsExpressible
  distinct : ((Forest.toList s.widgets).map Widget.identifier).Nodup

theorem Widget.IsExpressible.identifier_eq {w : Widget} (hw : w.IsExpressible) :
    w.identifier = .text w.name ∧ w.name.IsWord ∧ w.name ≠ "parent" := by
  obtain ⟨id, hname, hid, hparent⟩ := hw.identifier
  have hwname : w.name = id := by rw [name, hname]
  rw [hwname]
  exact ⟨hname, Text.isWord_of_isIdentifier hid, hparent⟩

theorem Screen.IsExpressible.nodup_names {s : Screen} (hs : s.IsExpressible) :
    ((Forest.toList s.widgets).map Widget.name).Nodup := by
  have hnames : (Forest.toList s.widgets).map Widget.identifier =
      ((Forest.toList s.widgets).map Widget.name).map .text := by
    rw [List.map_map]
    exact List.map_congr_left fun w hw => (hs.widgets w hw).identifier_eq.1
  have hdistinct := hs.distinct
  rw [hnames] at hdistinct
  exact hdistinct.of_map

end LvglForest
