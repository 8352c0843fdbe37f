import LvglForest.Code.Generation
import LvglForest.Proofs.Fault
import LvglForest.Proofs.Forest
import LvglForest.Proofs.Widget.Size
import LvglForest.Proofs.Widget.Style
import LvglForest.Widget.Exchange

/-!
# Documents read back

A widget is kept by documents (`Widget.IsKept`) if what is written for it can be told from what a
document leaves out: it has a kind, its place is given by integers, and its sizes and styles are
read back. What is written for a tree of such widgets is read as the tree, but for the places where
its widgets were found (`Tree.ofValue_toValue`), and these only show in the lines that are written
(`Tree.toValue_withoutSource`). All that documents describe is kept (`Tree.isKept_of_ofValue`).
-/

namespace LvglForest

/-! ## Values of fields -/

theorem Value.isTrue_orElse {v w : Value} (h : w.isTrue = true) : (v.orElse w).isTrue = true := by
  unfold orElse
  split
  · assumption
  · exact h

theorem Value.orElse_record (fs : Table Value) :
    (Value.record fs).orElse (.record []) = .record fs := by
  cases fs <;> rfl

/-- Fields that are null need not be written. -/
theorem Table.get?_given (name : Text) {fs : Table Value} (hn : fs.keys.Nodup) :
    (Table.get? name (fs.filter fun (_, v) => !v.isNull)).getD .null =
      (fs.get? name).getD .null := by
  induction fs with
  | nil => rfl
  | cons f fs ih =>
    obtain ⟨k, v⟩ := f
    rw [keys, List.map_cons, List.nodup_cons] at hn
    rw [get?]
    cases v with
    | null =>
      rw [List.filter_cons_of_neg (by simp [Value.isNull]), ih hn.2]
      split
      · next hk =>
        cases hget : get? name fs with
        | none => rfl
        | some v => exact absurd (List.mem_map_of_mem (f := (·.1)) (mem_of_get? hget)) (hk ▸ hn.1)
      · rfl
    | _ =>
      rw [List.filter_cons_of_pos (by rfl), get?]
      split
      · rfl
      · exact ih hn.2

namespace Widget

/-- A widget without the place where it was found. -/
def withoutSource (w : Widget) : Widget := { w with source := {} }

/-! ## Kept widgets -/

/-- A widget that can be told from its record. -/
structure IsKept (w : Widget) : Prop where
  kind : w.kind.isTrue = true
  identifier : w.identifier.isTrue = true ∨ w.identifier = .text []
  align : ∃ u, w.align.checkHashable = .ok u
  styles : w.styles.AreTexts
  x : ∃ n, w.x = .integer n
  y : ∃ n, w.y = .integer n
  width : w.width.IsKept
  height : w.height.IsKept

/-- The fields of a record, whatever comes between and behind them, are those written for a
widget. -/
structure IsWrittenIn (w : Widget) (fs : Table Value) : Prop where
  kind : fs.get? "kind" = some w.kind
  identifier : fs.get? "identifier" = some w.identifier
  parent : fs.get? "parent_identifier" = some w.parent
  properties : fs.get? "properties" = some (.record w.properties)
  styles : fs.get? "styles" = some w.styles.toValue
  position : fs.get? "position" = some (.record [("x", w.x), ("y", w.y)])
  size : ∃ width height,
    fs.get? "size" = some (.record [("width", width), ("height", height)]) ∧
      Size.ofValue width = .ok w.width ∧ Size.ofValue height = .ok w.height
  /-- Without an alignment there is no anchor. -/
  anchor : w.align.isNull = true → fs.get? "anchor" = none

/-- The properties are read from those that are given. -/
theorem field_properties (w : Widget) :
    (Value.record w.properties).field "text" = .ok w.text ∧
      (Value.record w.properties).field "value" = .ok w.value ∧
      (Value.record w.properties).field "range_min" = .ok w.rangeMin ∧
      (Value.record w.properties).field "range_max" = .ok w.rangeMax ∧
      (Value.record w.properties).field "align" = .ok w.align := by
  have hnames : (Table.keys [("text", w.text), ("value", w.value), ("range_min", w.rangeMin),
      ("range_max", w.rangeMax), ("align", w.align)]).Nodup := by
    show (["text", "value", "range_min", "range_max", "align"] : List Text).Nodup
    decide
  have hgiven (name : Text) := congrArg (Except.ok (ε := Fault)) (Table.get?_given name hnames)
  exact ⟨hgiven "text", hgiven "value", hgiven "range_min", hgiven "range_max", hgiven "align"⟩

/-- **A kept widget is read from the fields written for it.** -/
theorem ofFields_of_isWrittenIn {w : Widget} {fs : Table Value} (hw : w.IsKept)
    (h : w.IsWrittenIn fs) : ofFields fs = .ok w.withoutSource := by
  obtain ⟨width, height, hsize, hwidth, hheight⟩ := h.size
  obtain ⟨htext, hvalue, hmin, hmax, halign⟩ := w.field_properties
  obtain ⟨x, hx⟩ := hw.x
  obtain ⟨y, hy⟩ := hw.y
  have hkind : w.kind.orElse (.text Kind.container.name) = w.kind := if_pos hw.kind
  have hidentifier : w.identifier.orElse (.text []) = w.identifier := by
    rcases hw.identifier with hid | hid
    · exact if_pos hid
    · rw [hid]
      rfl
  have hanchor : (w.align.isNull && ((fs.get? "anchor").getD .null).isTrue) = false := by
    cases hnull : w.align.isNull with
    | false => rfl
    | true => rw [h.anchor hnull]; rfl
  have hpx : (Value.record [("x", w.x), ("y", w.y)]).field "x" = .ok w.x := rfl
  have hpy : (Value.record [("x", w.x), ("y", w.y)]).field "y" = .ok w.y := rfl
  have hcx : w.x.toCoordinate = .ok x := by rw [hx]; rfl
  have hcy : w.y.toCoordinate = .ok y := by rw [hy]; rfl
  have hsw : (Value.record [("width", width), ("height", height)]).field "width" = .ok width := rfl
  have hsh : (Value.record [("width", width), ("height", height)]).field "height" = .ok height :=
    rfl
  have hstyles : Styles.ofValue (.record w.styles.items) = .ok w.styles := hw.styles.ofValue_toValue
  unfold ofFields
  simp only [h.kind, h.identifier, h.parent, h.properties, h.styles, h.position, hsize,
    Option.getD_some, Value.orElse_record, Styles.toValue, hkind, hidentifier, bind, Except.bind,
    htext, hvalue, hmin, hmax, halign, hstyles, hpx, hcx, hpy, hcy, hsw, hwidth, hsh, hheight,
    hanchor, Bool.false_eq_true, if_false]
  rw [← hx, ← hy]
  rfl

theorem exists_anchor? {w : Widget} (h : ∃ u, w.align.checkHashable = .ok u) :
    ∃ anchor?, w.anchor? = .ok anchor? ∧ (w.align.isNull = true → anchor? = none) := by
  obtain ⟨u, hu⟩ := h
  unfold anchor?
  cases halign : w.align with
  | null => exact ⟨_, rfl, fun _ => rfl⟩
  | text t => exact ⟨_, rfl, fun h => nomatch h⟩
  | truth b | integer n | real x => exact ⟨none, rfl, fun _ => rfl⟩
  | list vs | record fs =>
    rw [halign] at hu
    cases hu

/-- **A kept widget is written**, and the children come between its fields. -/
theorem exists_isWrittenIn {w : Widget} (hw : w.IsKept) :
    ∃ own last, w.ownFields = .ok own ∧ w.lastFields = .ok last ∧ ∀ children,
      let fs : Table Value := own ++ [(("children" : Text), children)] ++ last
      w.IsWrittenIn fs ∧ Table.get? "children" fs = some children := by
  obtain ⟨width, hwidth, hreadwidth⟩ := hw.width
  obtain ⟨height, hheight, hreadheight⟩ := hw.height
  obtain ⟨anchor?, hanchor, hnone⟩ := exists_anchor? hw.align
  have hown : w.ownFields = .ok [("kind", w.kind), ("identifier", w.identifier),
      ("parent_identifier", w.parent), ("properties", .record w.properties),
      ("styles", w.styles.toValue), ("position", .record [("x", w.x), ("y", w.y)]),
      ("size", .record [("width", width), ("height", height)])] := by
    rw [ownFields, hwidth, hheight]
    rfl
  obtain ⟨last, hlast⟩ : ∃ last, w.lastFields = .ok last := by
    rw [lastFields, hanchor]
    exact ⟨_, rfl⟩
  refine ⟨_, last, hown, hlast, fun children => ⟨⟨rfl, rfl, rfl, rfl, rfl, rfl,
    ⟨width, height, rfl, hreadwidth, hreadheight⟩, fun hnull => ?_⟩, rfl⟩⟩
  show Table.get? "anchor" last = none
  rw [lastFields, hanchor, hnone hnull] at hlast
  cases hlast
  rw [List.nil_append]
  split <;> rfl

end Widget

/-! ## Kept trees -/

theorem Forest.ofField_eq (name : Text) (fs : Table Value) :
    Forest.ofField name fs = (fs.get? name).elim (.ok []) Forest.ofItems := by
  induction fs with
  | nil => rfl
  | cons f fs ih =>
    obtain ⟨k, v⟩ := f
    rw [Forest.ofField, Table.get?]
    split
    · rfl
    · exact ih

mutual

/-- **A tree of kept widgets is read back** from what is written for it. -/
theorem Tree.ofValue_toValue : ∀ (t : Tree Widget) (_ : ∀ w ∈ t.toList, w.IsKept),
    ∃ v, Tree.toValue t = .ok v ∧ Tree.ofValue v = .ok (Tree.relabel Widget.withoutSource t)
  | .node w ts, h => by
    rw [Tree.toList, List.forall_mem_cons] at h
    obtain ⟨own, last, hown, hlast, hfields⟩ := Widget.exists_isWrittenIn h.1
    obtain ⟨vs, hvs, hts⟩ := Forest.ofValues_toValues ts h.2
    obtain ⟨hwritten, hchildren⟩ := hfields (.list vs)
    refine ⟨.record (own ++ [(("children" : Text), Value.list vs)] ++ last), ?_, ?_⟩
    · rw [Tree.toValue, hown, hvs, hlast]
      rfl
    · rw [Tree.ofValue, Widget.ofFields_of_isWrittenIn h.1 hwritten, Forest.ofField_eq, hchildren,
        Option.elim_some, Forest.ofItems, hts, Tree.relabel]
      rfl

theorem Forest.ofValues_toValues : ∀ (ts : List (Tree Widget))
    (_ : ∀ w ∈ Forest.toList ts, w.IsKept), ∃ vs, Forest.toValues ts = .ok vs ∧
      Forest.ofValues vs = .ok (Forest.relabel Widget.withoutSource ts)
  | [], _ => ⟨[], rfl, rfl⟩
  | t :: ts, h => by
    rw [Forest.toList, List.forall_mem_append] at h
    obtain ⟨v, hv, ht⟩ := Tree.ofValue_toValue t h.1
    obtain ⟨vs, hvs, hts⟩ := Forest.ofValues_toValues ts h.2
    refine ⟨v :: vs, ?_, ?_⟩
    · rw [Forest.toValues, hv, hvs]
      rfl
    · rw [Forest.ofValues, ht, hts, Forest.relabel]
      rfl

end

/-! ## What documents describe -/

/-- A widget of a document is kept unless its alignment is a list or a record. -/
theorem Widget.isKept_of_ofFields {fs : Table Value} {w : Widget} (h : ofFields fs = .ok w)
    (halign : ∃ u, w.align.checkHashable = .ok u) : w.IsKept := by
  unfold ofFields at h
  obtain ⟨text, -, h⟩ := exists_of_bind_eq_ok h
  obtain ⟨value, -, h⟩ := exists_of_bind_eq_ok h
  obtain ⟨rangeMin, -, h⟩ := exists_of_bind_eq_ok h
  obtain ⟨rangeMax, -, h⟩ := exists_of_bind_eq_ok h
  obtain ⟨align, -, h⟩ := exists_of_bind_eq_ok h
  obtain ⟨styles, hstyles, h⟩ := exists_of_bind_eq_ok h
  obtain ⟨_, -, h⟩ := exists_of_bind_eq_ok h
  obtain ⟨x, -, h⟩ := exists_of_bind_eq_ok h
  obtain ⟨_, -, h⟩ := exists_of_bind_eq_ok h
  obtain ⟨y, -, h⟩ := exists_of_bind_eq_ok h
  obtain ⟨_, -, h⟩ := exists_of_bind_eq_ok h
  obtain ⟨width, hwidth, h⟩ := exists_of_bind_eq_ok h
  obtain ⟨_, -, h⟩ := exists_of_bind_eq_ok h
  obtain ⟨height, hheight, h⟩ := exists_of_bind_eq_ok h
  have hkind (v : Value) : (v.orElse (.text Kind.container.name)).isTrue = true :=
    Value.isTrue_orElse (by decide)
  have hidentifier (v : Value) :
      (v.orElse (.text [])).isTrue = true ∨ v.orElse (.text []) = .text [] := by
    unfold Value.orElse
    split
    · exact .inl ‹_›
    · exact .inr rfl
  simp only at h
  split at h
  · obtain ⟨horizontal, -, h⟩ := exists_of_bind_eq_ok h
    obtain ⟨vertical, -, h⟩ := exists_of_bind_eq_ok h
    obtain ⟨_, -, h⟩ := exists_of_bind_eq_ok h
    obtain ⟨_, -, h⟩ := exists_of_bind_eq_ok h
    cases h
    exact ⟨hkind _, hidentifier _, ⟨(), rfl⟩, Styles.areTexts_ofValue hstyles, ⟨x, rfl⟩, ⟨y, rfl⟩,
      Size.isKept_ofValue hwidth, Size.isKept_ofValue hheight⟩
  · cases h
    exact ⟨hkind _, hidentifier _, halign, Styles.areTexts_ofValue hstyles, ⟨x, rfl⟩, ⟨y, rfl⟩,
      Size.isKept_ofValue hwidth, Size.isKept_ofValue hheight⟩

theorem Forest.eq_nil_of_ofItems {v : Value} {ts : Forest Widget} (h : ofItems v = .ok ts)
    (hv : ∀ vs, v ≠ .list vs) : ts = [] := by
  unfold ofItems at h
  split at h
  · exact absurd rfl (hv _)
  · cases h
  · cases h
  · split at h <;> cases h
    rfl

/-- A property of values that passes on to the items of a list and to the fields of a record. -/
structure Value.IsInherited (C : Value → Prop) : Prop where
  items : ∀ vs, C (.list vs) → ∀ v ∈ vs, C v
  fields : ∀ fs, C (.record fs) → ∀ f ∈ fs, C f.2

section Inherited

variable {C : Value → Prop} {P : Widget → Prop}

mutual

/-- What holds of every widget that a record describes holds of all widgets of a document. -/
theorem Tree.forall_of_ofValue (hC : Value.IsInherited C)
    (hP : ∀ fs w, C (.record fs) → Widget.ofFields fs = .ok w → P w) :
    ∀ (v : Value) (t : Tree Widget) (_ : C v) (_ : Tree.ofValue v = .ok t), ∀ w ∈ t.toList, P w
  | .record fs, t, hv, h => by
    rw [Tree.ofValue] at h
    obtain ⟨w, hw, h⟩ := exists_of_bind_eq_ok h
    obtain ⟨ts, hts, h⟩ := exists_of_bind_eq_ok h
    cases h
    rw [Tree.toList, List.forall_mem_cons]
    exact ⟨hP fs w hv hw,
      Forest.forall_of_ofField hC hP "children" fs ts (hC.fields fs hv) hts⟩

theorem Forest.forall_of_ofField (hC : Value.IsInherited C)
    (hP : ∀ fs w, C (.record fs) → Widget.ofFields fs = .ok w → P w) (name : Text) :
    ∀ (fs : List (Text × Value)) (ts : Forest Widget) (_ : ∀ f ∈ fs, C f.2)
      (_ : Forest.ofField name fs = .ok ts), ∀ w ∈ Forest.toList ts, P w
  | [], ts, _, h => by
    cases h
    exact fun w hw => absurd hw List.not_mem_nil
  | (k, v) :: fs, ts, hfs, h => by
    rw [List.forall_mem_cons] at hfs
    rw [Forest.ofField] at h
    split at h
    · exact Forest.forall_of_ofItems hC hP v ts hfs.1 h
    · exact Forest.forall_of_ofField hC hP name fs ts hfs.2 h

theorem Forest.forall_of_ofItems (hC : Value.IsInherited C)
    (hP : ∀ fs w, C (.record fs) → Widget.ofFields fs = .ok w → P w) :
    ∀ (v : Value) (ts : Forest Widget) (_ : C v) (_ : Forest.ofItems v = .ok ts),
      ∀ w ∈ Forest.toList ts, P w
  | .list vs, ts, hv, h => Forest.forall_of_ofValues hC hP vs ts (hC.items vs hv) h
  | .null, ts, _, h | .truth _, ts, _, h | .integer _, ts, _, h | .real _, ts, _, h
  | .text _, ts, _, h | .record _, ts, _, h => by
    rw [Forest.eq_nil_of_ofItems h (by simp)]
    exact fun w hw => absurd hw List.not_mem_nil

theorem Forest.forall_of_ofValues (hC : Value.IsInherited C)
    (hP : ∀ fs w, C (.record fs) → Widget.ofFields fs = .ok w → P w) :
    ∀ (vs : List Value) (ts : Forest Widget) (_ : ∀ v ∈ vs, C v)
      (_ : Forest.ofValues vs = .ok ts), ∀ w ∈ Forest.toList ts, P w
  | [], ts, _, h => by
    cases h
    exact fun w hw => absurd hw List.not_mem_nil
  | v :: vs, ts, hvs, h => by
    rw [List.forall_mem_cons] at hvs
    rw [Forest.ofValues] at h
    obtain ⟨t, ht, h⟩ := exists_of_bind_eq_ok h
    obtain ⟨us, hus, h⟩ := exists_of_bind_eq_ok h
    cases h
    rw [Forest.toList, List.forall_mem_append]
    exact ⟨Tree.forall_of_ofValue hC hP v t hvs.1 ht,
      Forest.forall_of_ofValues hC hP vs us hvs.2 hus⟩

end

end Inherited

/-- **The widgets of a document are kept** unless their alignments are lists or records. -/
theorem Tree.isKept_of_ofValue (v : Value) (t : Tree Widget) (h : Tree.ofValue v = .ok t) :
    ∀ w ∈ t.toList, (∃ u, w.align.checkHashable = .ok u) → w.IsKept :=
  Tree.forall_of_ofValue (C := fun _ => True) ⟨fun _ _ _ _ => trivial, fun _ _ _ _ => trivial⟩
    (fun _ _ _ => Widget.isKept_of_ofFields) v t trivial h

/-! ## Lines -/

mutual

/-- The record of a widget and those below it without the lines in which they were found. -/
def Value.withoutLines : Value → Value
  | .record fs => .record (fieldsWithoutLines fs)
  | v => v

/-- The fields of a widget's record without lines, here and below. -/
def Value.fieldsWithoutLines : List (Text × Value) → List (Text × Value)
  | [] => []
  | (k, v) :: fs =>
    if k = "source_lines" then fieldsWithoutLines fs
    else if k = "children" then (k, childrenWithoutLines v) :: fieldsWithoutLines fs
    else (k, v) :: fieldsWithoutLines fs

/-- The records of children without lines. -/
def Value.childrenWithoutLines : Value → Value
  | .list vs => .list (itemsWithoutLines vs)
  | v => v

/-- The records of widgets without lines. -/
def Value.itemsWithoutLines : List Value → List Value
  | [] => []
  | v :: vs => withoutLines v :: itemsWithoutLines vs

end

theorem Value.fieldsWithoutLines_append (fs gs : List (Text × Value)) :
    fieldsWithoutLines (fs ++ gs) = fieldsWithoutLines fs ++ fieldsWithoutLines gs := by
  induction fs with
  | nil => rfl
  | cons f fs ih =>
    obtain ⟨k, v⟩ := f
    simp only [List.cons_append, fieldsWithoutLines, ih]
    split
    · rfl
    · split <;> rfl

namespace Widget

/-- No lines stand before the children. -/
theorem fieldsWithoutLines_own {w : Widget} {own : List (Text × Value)}
    (h : w.ownFields = .ok own) : Value.fieldsWithoutLines own = own := by
  obtain ⟨width, -, h⟩ := exists_of_bind_eq_ok h
  obtain ⟨height, -, h⟩ := exists_of_bind_eq_ok h
  cases h
  rfl

/-- Behind the children the lines are written if there are any. -/
theorem lastFields_withoutSource {w : Widget} {last : List (Text × Value)}
    (h : w.lastFields = .ok last) :
    w.withoutSource.lastFields = .ok (Value.fieldsWithoutLines last) := by
  have hanchor : w.withoutSource.anchor? = w.anchor? := rfl
  unfold lastFields at h ⊢
  rw [hanchor]
  obtain ⟨anchor?, hanchor, h⟩ := exists_of_bind_eq_ok h
  rw [hanchor]
  cases h
  have hlines : Value.fieldsWithoutLines (if w.source.first.isTrue then
      [("source_lines", .list [w.source.first, w.source.last])] else []) = [] := by
    split <;> rfl
  rw [Value.fieldsWithoutLines_append, hlines]
  cases anchor? <;> rfl

end Widget

mutual

/-- **Without the places of its widgets** a tree is written as before, but for the lines. -/
theorem Tree.toValue_withoutSource : ∀ (t : Tree Widget) (v : Value) (_ : Tree.toValue t = .ok v),
    Tree.toValue (Tree.relabel Widget.withoutSource t) = .ok v.withoutLines
  | .node w ts, v, h => by
    rw [Tree.toValue] at h
    obtain ⟨own, hown, h⟩ := exists_of_bind_eq_ok h
    obtain ⟨children, hchildren, h⟩ := exists_of_bind_eq_ok h
    obtain ⟨last, hlast, h⟩ := exists_of_bind_eq_ok h
    cases h
    have hsame : w.withoutSource.ownFields = .ok own := hown
    rw [Tree.relabel, Tree.toValue, hsame, Forest.toValues_withoutSource ts children hchildren,
      Widget.lastFields_withoutSource hlast, Value.withoutLines, Value.fieldsWithoutLines_append,
      Value.fieldsWithoutLines_append, Widget.fieldsWithoutLines_own hown]
    rfl

theorem Forest.toValues_withoutSource : ∀ (ts : List (Tree Widget)) (vs : List Value)
    (_ : Forest.toValues ts = .ok vs),
    Forest.toValues (Forest.relabel Widget.withoutSource ts) = .ok (Value.itemsWithoutLines vs)
  | [], vs, h => by
    cases h
    rfl
  | t :: ts, vs, h => by
    rw [Forest.toValues] at h
    obtain ⟨v, hv, h⟩ := exists_of_bind_eq_ok h
    obtain ⟨vs, hvs, h⟩ := exists_of_bind_eq_ok h
    cases h
    rw [Forest.relabel, Forest.toValues, Tree.toValue_withoutSource t v hv,
      Forest.toValues_withoutSource ts vs hvs]
    rfl

end

end LvglForest
