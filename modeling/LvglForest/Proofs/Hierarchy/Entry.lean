import LvglForest.Proofs.Code.Generation
import LvglForest.Proofs.Hierarchy.Collection
import LvglForest.Proofs.Widget.Style

/-!
# The entries that assertions make

Lines apart, a collection depends only on what the facts say (`Collection.unplaced_ofFacts`). The
assertions of a widget make the entry that has its properties (`Entry.foldl_assertions`), since each
property is asserted unless it has the value that an entry starts with; and the assertions of the
widgets of a forest add these entries one behind the other (`Collection.foldl_assertionsOf`).
-/

namespace LvglForest

/-! ## Lines apart -/

/-- An entry without its lines. -/
def Entry.unplaced (e : Entry) : Entry := { e with firstLine := .null, lastLine := .null }

namespace Collection

/-- A collection without lines. -/
def unplaced (c : Collection) : Collection :=
  { c with entries := c.entries.mapValues Entry.unplaced }

/-- Adds what is said, in no line. -/
def hear (c : Collection) (said : Text × Assertion) : Collection :=
  c.add { identifier := said.1, line := .null, assertion := said.2 }

theorem unplaced_add (f : Fact) (c : Collection) :
    (c.add f).unplaced = c.unplaced.hear f.content := by
  obtain ⟨id, line, a⟩ := f
  have hadjust (b : Assertion) : (c.entries.adjust id (·.apply ⟨id, line, b⟩)).mapValues
      Entry.unplaced = (c.entries.mapValues Entry.unplaced).adjust id (·.apply ⟨id, .null, b⟩) :=
    Table.mapValues_adjust (fun e => by cases b <;> rfl) id c.entries
  have hhas : (c.entries.mapValues Entry.unplaced).has id = c.entries.has id :=
    Table.has_mapValues _ _ _
  cases a with
  | declared type =>
    simp only [hear, Fact.content, add, unplaced, hhas]
    split <;> rfl
  | created kind sourceName parent =>
    simp only [hear, Fact.content, add, unplaced, hhas]
    split
    · exact congrArg (Collection.mk · c.declared) (hadjust _)
    · exact congrArg (Collection.mk · c.declared) (Table.mapValues_put _ _ _ _)
  | _ => exact congrArg (Collection.mk · c.declared) (hadjust _)

/-- **Lines apart, a collection depends on what is said.** -/
theorem unplaced_ofFacts (fs : List Fact) :
    (ofFacts fs).unplaced = (fs.map Fact.content).foldl hear {} := by
  have hfrom (c : Collection) : (fs.foldl (fun c f => c.add f) c).unplaced =
      (fs.map Fact.content).foldl hear c.unplaced := by
    induction fs generalizing c with
    | nil => rfl
    | cons f fs ih => rw [List.foldl_cons, ih, unplaced_add, List.map_cons, List.foldl_cons]
  exact hfrom {}

end Collection

/-! ## The entry of a widget -/

/-- The entry of a widget that is created below a parent, without lines. -/
def Widget.entry (parent : Text) (w : Widget) : Entry where
  kind := w.kind
  parent := .text parent
  text := w.text
  value := w.value
  rangeMin := w.rangeMin
  rangeMax := w.rangeMax
  align := w.align
  styles := w.styles
  x := w.x
  y := w.y
  width := w.width
  height := w.height
  firstLine := .null
  lastLine := .null

namespace Entry

/-- Changes an entry by what is said, in no line. -/
def hear (e : Entry) (a : Assertion) : Entry := { e.assert a with lastLine := .null }

theorem foldl_hear_styles (items : List (Text × Value)) {e : Entry} (he : e.lastLine = .null) :
    (items.map fun (key, v) => Assertion.style key v).foldl hear e =
      { e with styles := items.foldl (fun s i => s.set i.1 i.2) e.styles } := by
  induction items generalizing e with
  | nil => rfl
  | cons i items ih =>
    have hnext : (e.hear (.style i.1 i.2)).lastLine = .null := rfl
    rw [List.map_cons, List.foldl_cons, ih hnext, List.foldl_cons, hear, assert, ← he]

/-- What is asserted only where it is not the case already. -/
theorem foldl_hear_unless {c : Bool} {a : Assertion} {e e' : Entry} (hskip : c = true → e = e')
    (hsay : c = false → e.hear a = e') : (if c then [] else [a]).foldl hear e = e' := by
  cases c with
  | true => exact hskip rfl
  | false => exact hsay rfl

variable {w : Widget} (hw : w.IsExpressible)
include hw

theorem foldl_hear_size {e : Entry} (hwidth : e.width = .auto) (hheight : e.height = .auto)
    (he : e.lastLine = .null) :
    (if w.width.isAuto || w.height.isAuto then [] else [Assertion.size w.width w.height]).foldl
      hear e = { e with width := w.width, height := w.height } := by
  refine foldl_hear_unless (fun h => ?_) fun _ => by rw [hear, assert, ← he]
  rcases hw.size with ⟨hw, hh⟩ | ⟨hw, hh⟩
  · cases e
    cases hwidth
    cases hheight
    rw [hw, hh]
    rfl
  · rw [hw.exists_token.1, hh.exists_token.1] at h
    cases h

theorem hear_placing {e : Entry} (he : e.lastLine = .null) :
    e.hear w.placing = { e with align := w.align, x := w.x, y := w.y } := by
  obtain ⟨x, y, hx, hy, -, -⟩ := hw.place
  unfold Widget.placing
  split
  · next hnull =>
    rcases hw.align with halign | ⟨t, halign, -⟩
    · rw [halign, hear, assert, ← he]
    · rw [halign] at hnull
      cases hnull
  · split
    · next hcenter =>
      rw [Bool.and_eq_true, Bool.and_eq_true, hx, hy] at hcenter
      obtain ⟨⟨hkeyword, hxzero⟩, hyzero⟩ := hcenter
      have halign : w.align = .text Anchor.middle.keyword := by
        rcases hw.align with halign | ⟨t, halign, -⟩ <;> rw [halign] at hkeyword
        · cases hkeyword
        · rw [halign, of_decide_eq_true hkeyword]
      have hxzero : x = 0 := of_decide_eq_true hxzero
      have hyzero : y = 0 := of_decide_eq_true hyzero
      rw [halign, hx, hy, hxzero, hyzero, hear, assert, ← he]
    · rw [hear, assert, ← he]

theorem foldl_hear_settings {e : Entry} (htext : e.text = .null) (hvalue : e.value = .null)
    (hmin : e.rangeMin = .null) (hmax : e.rangeMax = .null) (he : e.lastLine = .null) :
    w.settings.foldl hear e = { e with
      text := w.text
      value := w.value
      rangeMin := w.rangeMin
      rangeMax := w.rangeMax } := by
  obtain ⟨k, -, -, -, hwrange⟩ := hw.kind
  have hnull {v : Value} (h : v.isNull = true) : v = .null := by
    cases v with
    | null => rfl
    | _ => cases h
  have htexts : (if w.text.isNull then [] else [Assertion.text w.text]).foldl hear e =
      { e with text := w.text } :=
    foldl_hear_unless (fun h => by rw [hnull h, ← htext]) fun _ => by rw [hear, assert, ← he]
  have hranges : (if w.rangeMin.isNull || w.rangeMax.isNull then []
      else [Assertion.range w.rangeMin w.rangeMax]).foldl hear { e with text := w.text } =
        { e with text := w.text, rangeMin := w.rangeMin, rangeMax := w.rangeMax } := by
    refine foldl_hear_unless (fun h => ?_) fun _ => by rw [hear, assert, ← he]
    rcases hwrange with ⟨hwmin, hwmax⟩ | ⟨-, hwmin, hwmax⟩
    · cases e
      cases hmin
      cases hmax
      rw [hwmin, hwmax]
    · rw [hwmin.isNull_eq_false, hwmax.isNull_eq_false] at h
      cases h
  have hvalues : (if w.value.isNull then [] else [Assertion.value w.value]).foldl hear
      { e with text := w.text, rangeMin := w.rangeMin, rangeMax := w.rangeMax } = { e with
        text := w.text
        value := w.value
        rangeMin := w.rangeMin
        rangeMax := w.rangeMax } := by
    refine foldl_hear_unless (fun h => ?_) fun _ => by rw [hear, assert, ← he]
    rw [hnull h, ← hvalue]
  rw [Widget.settings, List.foldl_append, List.foldl_append, htexts, hranges, hvalues]

/-- **The assertions of a widget make its entry** from the one that its creation starts. -/
theorem foldl_assertions (parent : Text) :
    (w.assertions parent).tail.foldl hear (.start w.kind (.text parent) .null) =
      w.entry parent := by
  have hknown : ∀ k v, w.styles.known k = some v → v.isNull = false := by
    intro k v hv
    obtain ⟨t, rfl, -⟩ := hw.known k v hv
    rfl
  have hstyles := Styles.foldl_items hknown (fun i hi => (hw.extra i hi).1.unknown) hw.distinct
  have htail : (w.assertions parent).tail =
      (if w.width.isAuto || w.height.isAuto then [] else [.size w.width w.height]) ++
        [w.placing] ++ w.settings ++ w.styles.items.map fun (key, v) => .style key v := by
    simp only [Widget.assertions, List.append_assoc]
    rfl
  rw [htail, List.foldl_append, List.foldl_append, List.foldl_append, foldl_hear_size hw rfl rfl rfl,
    List.foldl_cons, List.foldl_nil, hear_placing hw rfl, foldl_hear_settings hw rfl rfl rfl rfl rfl,
    foldl_hear_styles _ rfl]
  exact congrArg (fun styles => { w.entry parent with styles }) hstyles

end Entry

/-! ## The entries of a forest -/

/-- After its creation, nothing that is said of a widget is a declaration. -/
theorem Widget.ne_declared_of_mem {parent : Text} {w : Widget} {a : Assertion}
    (h : a ∈ (w.assertions parent).tail) (type : Value) : a ≠ .declared type := by
  rintro rfl
  simp only [assertions, settings, List.cons_append, List.nil_append, List.tail_cons,
    List.mem_append, List.mem_singleton, List.mem_map] at h
  rcases h with ((h | h) | ((h | h) | h)) | ⟨i, -, h⟩
  · split at h <;> simp at h
  · unfold placing at h
    split at h
    · cases h
    · split at h <;> cases h
  · split at h <;> simp at h
  · split at h <;> simp at h
  · split at h <;> simp at h
  · cases h

namespace Collection

variable {entries : Table Entry} {id : Text} (hid : id ∉ entries.keys) (declared : Table Value)
include hid

/-- What is said of the widget that was created last changes its entry. -/
theorem hear_last {a : Assertion} (ha : ∀ type, a ≠ .declared type) (e : Entry) :
    hear ⟨entries ++ [(id, e)], declared⟩ (id, a) =
      ⟨entries ++ [(id, e.hear a)], declared⟩ := by
  have hadjust := Table.adjust_concat hid e (Entry.hear · a)
  have hhas : Table.has id (entries ++ [(id, e)]) = true := by
    rw [Table.has_iff_mem_keys, Table.keys, List.map_append]
    exact List.mem_append_right _ List.mem_cons_self
  cases a with
  | declared type => exact absurd rfl (ha type)
  | created kind sourceName parent =>
    simp only [hear, add, hhas, if_true]
    exact congrArg (Collection.mk · declared) hadjust
  | _ => exact congrArg (Collection.mk · declared) hadjust

theorem foldl_hear_last {as : List Assertion} (has : ∀ a ∈ as, ∀ type, a ≠ .declared type)
    (e : Entry) :
    (as.map (id, ·)).foldl hear ⟨entries ++ [(id, e)], declared⟩ =
      ⟨entries ++ [(id, as.foldl Entry.hear e)], declared⟩ := by
  induction as generalizing e with
  | nil => rfl
  | cons a as ih =>
    rw [List.forall_mem_cons] at has
    rw [List.map_cons, List.foldl_cons, hear_last hid declared has.1, ih has.2, List.foldl_cons]

omit hid

/-- The assertions of a new widget add its entry. -/
theorem foldl_assertions {w : Widget} (hw : w.IsExpressible) (hname : w.name ∉ entries.keys)
    (parent : Text) :
    ((w.assertions parent).map (w.name, ·)).foldl hear ⟨entries, declared⟩ =
      ⟨entries ++ [(w.name, w.entry parent)], declared⟩ := by
  have hcreate : hear ⟨entries, declared⟩ (w.name, .created w.kind
      (Kind.orContainer (Kind.ofValue? w.kind)).sourceName (.text parent)) =
        ⟨entries ++ [(w.name, .start w.kind (.text parent) .null)], declared⟩ := by
    simp only [hear, add, Table.has_eq_false_iff.2 hname, Bool.false_eq_true, if_false,
      Table.put_of_not_mem hname]
  have hsplit : w.assertions parent = .created w.kind
      (Kind.orContainer (Kind.ofValue? w.kind)).sourceName (.text parent) ::
        (w.assertions parent).tail := rfl
  rw [hsplit, List.map_cons, List.foldl_cons, hcreate,
    foldl_hear_last hname declared (fun a ha => Widget.ne_declared_of_mem ha),
    Entry.foldl_assertions hw]

/-- **The assertions of the widgets of a forest add their entries**, one behind the other. -/
theorem foldl_assertionsOf {links : List (Text × Widget)}
    (hlinks : ∀ l ∈ links, l.2.IsExpressible)
    (hn : (entries.keys ++ links.map (·.2.name)).Nodup) :
    (Widget.assertionsOf links).foldl hear ⟨entries, declared⟩ =
      ⟨entries ++ links.map fun (p, w) => (w.name, w.entry p), declared⟩ := by
  induction links generalizing entries with
  | nil => rw [List.map_nil, List.append_nil]; rfl
  | cons l links ih =>
    obtain ⟨p, w⟩ := l
    rw [List.forall_mem_cons] at hlinks
    have hname : w.name ∉ entries.keys := by
      rw [List.nodup_append] at hn
      exact fun h => hn.2.2 _ h _ List.mem_cons_self rfl
    have hrest : (Table.keys (entries ++ [(w.name, w.entry p)]) ++
        links.map (·.2.name)).Nodup := by
      rw [Table.keys, List.map_append, List.append_assoc]
      exact hn
    have hsplit : Widget.assertionsOf ((p, w) :: links) =
        (w.assertions p).map (w.name, ·) ++ Widget.assertionsOf links := List.flatMap_cons
    rw [hsplit, List.foldl_append, foldl_assertions declared hlinks.1 hname, ih hlinks.2 hrest,
      List.append_assoc]
    rfl

end Collection

end LvglForest
