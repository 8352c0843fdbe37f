import LvglForest.Proofs.Hierarchy.Source
import LvglForest.Proofs.Project.RoundTrip
import LvglForest.Proofs.Project.Symbol
import LvglForest.Proofs.Value.Read
import LvglForest.Proofs.Widget.Exchange

/-!
# What documents describe, rendered

Of a widget that is read from a document nearly all can be written: its styles are texts, its place
and its sizes have few digits (`Widget.isPresentable_of_ofFields`). What is left is taken as it
stands in the document, so generation fails exactly where an identifier is given that is no text, a
kind that is no key, or a text that is set and is not a row of characters (`Forest.IsUsable`), and
rendering also where the name of a screen is no text (`Project.exists_ofScreens_iff_isUsable`).
-/

namespace LvglForest

/-! ## Values -/

namespace Value

theorem isInherited_converts : IsInherited Converts where
  items _ h := itemsConvert_iff.1 h
  fields _ h := fieldsConvert_iff.1 h

theorem Converts.orElse {v w : Value} (hv : v.Converts) (hw : w.Converts) :
    (v.orElse w).Converts := by
  unfold Value.orElse
  split
  · exact hv
  · exact hw

/-- What a record of values that convert gives under a name converts. -/
theorem converts_given {fs : Table Value} (h : FieldsConvert fs) (name : Text) :
    ((fs.get? name).getD .null).Converts := by
  cases hget : fs.get? name with
  | none => trivial
  | some v => exact fieldsConvert_iff.1 h (name, v) (Table.mem_of_get? hget)

theorem Converts.field {v u : Value} {name : Text} (hv : v.Converts)
    (h : v.field name = .ok u) : u.Converts := by
  cases v with
  | record fs =>
    cases h
    exact converts_given hv name
  | _ => cases h

theorem Converts.toCoordinate {v : Value} {n : Int} (hv : v.Converts)
    (h : v.toCoordinate = .ok n) : Decimal.Converts n := by
  have hzero : Decimal.Converts 0 := by decide
  cases v with
  | null =>
    cases h
    exact hzero
  | truth b =>
    cases h
    cases b <;> decide
  | integer m =>
    cases h
    exact hv
  | real x =>
    cases x with
    | nan => cases h
    | infinity negative => cases h
    | finite negative m e =>
      cases h
      exact hv _ rfl
  | text t =>
    replace h : (if t.isEmpty then .ok 0 else Decimal.read t) = Except.ok n := h
    split at h
    · cases h
      exact hzero
    · exact Decimal.converts_of_read h
  | list vs =>
    cases vs with
    | nil =>
      cases h
      exact hzero
    | cons v vs => cases h
  | record fs =>
    cases fs with
    | nil =>
      cases h
      exact hzero
    | cons f fs => cases h

end Value

theorem Size.canShow_percent {n : Int} (h : Decimal.Converts n) :
    (Size.percent (.integer n)).CanShow := by
  obtain ⟨t, ht⟩ := Value.canShow_integer h
  exact ⟨_, by rw [toSource, ht]; rfl⟩

theorem Size.canShow_ofText (t : Text) : (ofText t).CanShow := by
  unfold ofText
  simp only
  split
  · split
    · next n hn => exact canShow_percent (Decimal.converts_of_read hn)
    · exact Value.canShow_text _
  · split
    · next n hn => exact Value.canShow_integer (Decimal.converts_of_read hn)
    · exact Value.canShow_text _

theorem Size.canShow_ofValue {v : Value} {s : Size} (hv : v.Converts) (h : ofValue v = .ok s) :
    s.CanShow := by
  obtain ⟨t, ht⟩ := Value.exists_display hv
  unfold ofValue at h
  split at h
  · cases h
    exact Value.canShow_text _
  · cases h
    exact Value.canShow_text _
  · cases h
    exact Value.canShow_integer hv
  · rw [ht] at h
    cases h
    exact canShow_ofText t

/-! ## Widgets -/

namespace Widget

/-- A widget of which all can be written, though its kind, its name and its text may be no texts. -/
structure IsPresentable (w : Widget) : Prop where
  kind : w.kind.CanShow
  value : w.value.CanShow
  rangeMin : w.rangeMin.CanShow
  rangeMax : w.rangeMax.CanShow
  align : w.align.CanShow
  styles : w.styles.AreTexts
  x : w.x.CanShow
  y : w.y.CanShow
  width : w.width.CanShow
  height : w.height.CanShow

/-- **A widget of a document** can be written but for what is taken as it stands. -/
theorem isPresentable_of_ofFields {fs : Table Value} {w : Widget} (hfs : Value.FieldsConvert fs)
    (h : ofFields fs = .ok w) : w.IsPresentable := by
  have hgiven := fun name => Value.converts_given hfs name
  have hpart := fun name => (hgiven name).orElse (w := .record []) trivial
  have hshow {v : Value} (hv : v.Converts) : v.CanShow := Value.exists_display hv
  unfold ofFields at h
  obtain ⟨text, -, h⟩ := exists_of_bind_eq_ok h
  obtain ⟨value, hvalue, h⟩ := exists_of_bind_eq_ok h
  obtain ⟨rangeMin, hmin, h⟩ := exists_of_bind_eq_ok h
  obtain ⟨rangeMax, hmax, h⟩ := exists_of_bind_eq_ok h
  obtain ⟨align, halign, h⟩ := exists_of_bind_eq_ok h
  obtain ⟨styles, hstyles, h⟩ := exists_of_bind_eq_ok h
  obtain ⟨u, hu, h⟩ := exists_of_bind_eq_ok h
  obtain ⟨x, hx, h⟩ := exists_of_bind_eq_ok h
  obtain ⟨v, hv, h⟩ := exists_of_bind_eq_ok h
  obtain ⟨y, hy, h⟩ := exists_of_bind_eq_ok h
  obtain ⟨a, ha, h⟩ := exists_of_bind_eq_ok h
  obtain ⟨width, hwidth, h⟩ := exists_of_bind_eq_ok h
  obtain ⟨b, hb, h⟩ := exists_of_bind_eq_ok h
  obtain ⟨height, hheight, h⟩ := exists_of_bind_eq_ok h
  have hread (align : Value) (halign : align.CanShow) : IsPresentable
      { kind := (((fs.get? "kind").getD .null).orElse (.text Kind.container.name))
        identifier := ((fs.get? "identifier").getD .null).orElse (.text [])
        parent := (fs.get? "parent_identifier").getD .null
        text, value, rangeMin, rangeMax, align, styles, width, height
        x := .integer x
        y := .integer y } :=
    { kind := hshow ((hgiven "kind").orElse trivial)
      value := hshow ((hpart "properties").field hvalue)
      rangeMin := hshow ((hpart "properties").field hmin)
      rangeMax := hshow ((hpart "properties").field hmax)
      align := halign
      styles := Styles.areTexts_ofValue hstyles
      x := Value.canShow_integer (((hpart "position").field hu).toCoordinate hx)
      y := Value.canShow_integer (((hpart "position").field hv).toCoordinate hy)
      width := Size.canShow_ofValue ((hpart "size").field ha) hwidth
      height := Size.canShow_ofValue ((hpart "size").field hb) hheight }
  simp only at h
  split at h
  · obtain ⟨horizontal, -, h⟩ := exists_of_bind_eq_ok h
    obtain ⟨vertical, -, h⟩ := exists_of_bind_eq_ok h
    obtain ⟨_, -, h⟩ := exists_of_bind_eq_ok h
    obtain ⟨_, -, h⟩ := exists_of_bind_eq_ok h
    cases h
    exact hread _ (Value.canShow_text _)
  · cases h
    exact hread align (hshow ((hpart "properties").field halign))

theorem IsPresentable.fault?_emissions_iff {w : Widget} (hw : w.IsPresentable) (d : Detail)
    (id parent : Text) : (w.emissions d id parent).fault? = none ↔ w.IsUsable := by
  rw [fault?_emissions_iff_isUsable d id parent w hw.kind hw.styles.items, and_iff_left]
  exact isWritten_of_canShow hw.width hw.height hw.align hw.x hw.y hw.rangeMin hw.rangeMax hw.value

end Widget

/-! ## Forests -/

mutual

/-- Statements can be made of a tree: its root has no identifier or one that is a text, and where
that is legal, they can be made of the root and of what is below it. -/
def Tree.IsUsable : Tree Widget → Prop
  | .node w ts =>
    match w.naming with
    | .skip _ => True
    | .fault _ => False
    | .legal _ => w.IsUsable ∧ Forest.IsUsable ts

/-- Statements can be made of trees. -/
def Forest.IsUsable : List (Tree Widget) → Prop
  | [] => True
  | t :: ts => Tree.IsUsable t ∧ Forest.IsUsable ts

end

mutual

theorem Tree.fault?_emissions_iff_isUsable (d : Detail) : ∀ (parent : Text) (path : List Nat)
    (t : Tree Widget) (_ : ∀ w ∈ t.toList, w.IsPresentable),
    (Tree.emissions d parent path t).fault? = none ↔ Tree.IsUsable t
  | parent, path, .node w ts, h => by
    rw [Tree.toList, List.forall_mem_cons] at h
    rw [Tree.emissions, Tree.IsUsable]
    cases w.naming with
    | skip reason => exact iff_of_true rfl trivial
    | fault f => exact iff_of_false (fun h => nomatch h) not_false
    | legal identifier =>
      simp only
      rw [Emissions.fault?_append_eq_none, h.1.fault?_emissions_iff,
        Forest.fault?_emissions_iff_isUsable d identifier path 0 ts h.2]

/-- **Generation from a document** ends without a fault exactly if statements can be made of its
widgets. -/
theorem Forest.fault?_emissions_iff_isUsable (d : Detail) : ∀ (parent : Text) (path : List Nat)
    (index : Nat) (ts : List (Tree Widget)) (_ : ∀ w ∈ Forest.toList ts, w.IsPresentable),
    (Forest.emissions d parent path index ts).fault? = none ↔ Forest.IsUsable ts
  | _, _, _, [], _ => iff_of_true rfl trivial
  | parent, path, index, t :: ts, h => by
    rw [Forest.toList, List.forall_mem_append] at h
    rw [Forest.emissions, Emissions.fault?_append_eq_none, Forest.IsUsable,
      Tree.fault?_emissions_iff_isUsable d parent (path ++ [index]) t h.1,
      Forest.fault?_emissions_iff_isUsable d parent path (index + 1) ts h.2]

end

/-! ## Screens -/

/-- A screen that can be rendered: its name is a text, and statements can be made of its widgets. -/
structure Screen.IsUsable (s : Screen) : Prop where
  name : ∃ name, s.name = .text name
  widgets : Forest.IsUsable s.widgets

theorem Screen.isPresentable_of_ofValue {v : Value} {s : Screen} (hv : v.Converts)
    (h : ofValue v = .ok s) : ∀ w ∈ Forest.toList s.widgets, w.IsPresentable := by
  cases v with
  | record fs =>
    rw [ofValue] at h
    obtain ⟨ts, hts, h⟩ := exists_of_bind_eq_ok h
    cases h
    exact Forest.forall_of_ofField Value.isInherited_converts
      (fun _ _ => Widget.isPresentable_of_ofFields) "widgets" fs ts
      (Value.isInherited_converts.fields fs hv) hts
  | _ => cases h

theorem Screen.isPresentable_of_ofValues {vs : List Value} {ss : List Screen}
    (hvs : ∀ v ∈ vs, v.Converts) (h : ofValues vs = .ok ss) :
    ∀ s ∈ ss, ∀ w ∈ Forest.toList s.widgets, w.IsPresentable := by
  induction vs generalizing ss with
  | nil =>
    cases h
    exact fun s hs => absurd hs List.not_mem_nil
  | cons v vs ih =>
    rw [List.forall_mem_cons] at hvs
    rw [ofValues] at h
    obtain ⟨s, hs, h⟩ := exists_of_bind_eq_ok h
    obtain ⟨ss', hss', h⟩ := exists_of_bind_eq_ok h
    cases h
    exact List.forall_mem_cons.2 ⟨isPresentable_of_ofValue hvs.1 hs, ih hvs.2 hss'⟩

namespace Rendering

/-- The drafts of screens end without a fault exactly if the screens can be rendered. -/
theorem exists_settled_iff {o : ExportOptions} (ho : o.ShowsHeader) {screens : List Screen}
    (h : ∀ s ∈ screens, ∀ w ∈ Forest.toList s.widgets, w.IsPresentable) (used : List Text) :
    (∃ ds, settled o (drafts o used screens) = .ok ds) ↔ ∀ s ∈ screens, s.IsUsable := by
  induction screens generalizing used with
  | nil => exact iff_of_true ⟨[], rfl⟩ fun s hs => absurd hs List.not_mem_nil
  | cons s screens ih =>
    rw [List.forall_mem_cons] at h
    rw [List.forall_mem_cons, drafts]
    cases hname : Symbol.ofValue s.name with
    | error f =>
      refine iff_of_false not_exists_ok fun h => ?_
      obtain ⟨name, hs⟩ := h.1.name
      rw [hs] at hname
      cases hname
    | ok wanted =>
      have husable := Forest.fault?_emissions_iff_isUsable o.detail o.parentName [] 0 s.widgets h.1
      simp only [settled, Draft.fault?_of_showsHeader ho]
      split
      · next f hf =>
        refine iff_of_false not_exists_ok fun h => ?_
        rw [husable.2 h.1.widgets] at hf
        cases hf
      · next hfault =>
        have hs : s.IsUsable := ⟨Symbol.exists_text_of_ofValue hname, husable.1 hfault⟩
        rw [and_iff_right hs, ← ih h.2]
        exact Fault.exists_map_iff

end Rendering

/-- **Screens of a document are rendered** exactly if their names are texts and statements can be
made of their widgets. -/
theorem Project.exists_ofScreens_iff_isUsable {o : ExportOptions} {library : Text}
    (hline : o.includeLine = .text library) (hheader : o.ShowsHeader) {screens : List Screen}
    (h : ∀ s ∈ screens, ∀ w ∈ Forest.toList s.widgets, w.IsPresentable) :
    (∃ p, ofScreens o screens = .ok p) ↔ ∀ s ∈ screens, s.IsUsable := by
  rw [← Rendering.exists_settled_iff hheader h []]
  unfold ofScreens
  rw [hline]
  cases Rendering.settled o (Rendering.drafts o [] screens) with
  | error f => exact iff_of_false not_exists_ok not_exists_ok
  | ok ds => exact iff_of_true ⟨_, rfl⟩ ⟨ds, rfl⟩

end LvglForest
