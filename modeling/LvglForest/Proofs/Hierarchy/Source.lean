import LvglForest.Proofs.Code.Emission
import LvglForest.Proofs.Fact.Report
import LvglForest.Proofs.Fault
import LvglForest.Proofs.Hierarchy.ParsedFile
import LvglForest.Proofs.Widget.Style

/-!
# The widgets of source

What source can say makes widgets that can be generated again, but for their names: every widget of
a parsed source text is typed, and all that is shown of it can be written
(`ParsedFile.isSourced_of_mem_widgets`). Its name is a word, which need not be an identifier, and so
is its kind (`ParsedFile.isWord_kind_of_mem_widgets`).
-/

namespace LvglForest

/-- What holds of the sizes, the place, the range and the value of a widget as they are written
holds of all that is shown of it. -/
theorem Widget.forall_mem_shown {Q : Except Fault Text → Prop} {w : Widget}
    (hwidth : Q w.width.toSource) (hheight : Q w.height.toSource) (halign : Q w.align.display)
    (hx : Q w.x.display) (hy : Q w.y.display) (hmin : Q w.rangeMin.display)
    (hmax : Q w.rangeMax.display) (hvalue : Q w.value.display) : ∀ r ∈ w.shown, Q r := by
  have hplace : ∀ r ∈ [w.align.display, w.x.display, w.y.display], Q r := by
    simpa using ⟨halign, hx, hy⟩
  rw [shown]
  simp only [List.forall_mem_append]
  refine ⟨⟨⟨forall_mem_unless ?_, ?_⟩, forall_mem_unless ?_⟩, forall_mem_unless ?_⟩
  · simpa using ⟨hwidth, hheight⟩
  · split
    · exact (List.forall_mem_cons.1 hplace).2
    · exact forall_mem_unless hplace
  · simpa using ⟨hmin, hmax⟩
  · exact List.forall_mem_singleton.2 hvalue

/-- A widget is written if its sizes, its place, its range and its value can be shown. -/
theorem Widget.isWritten_of_canShow {w : Widget} (hwidth : w.width.CanShow)
    (hheight : w.height.CanShow) (halign : w.align.CanShow) (hx : w.x.CanShow) (hy : w.y.CanShow)
    (hmin : w.rangeMin.CanShow) (hmax : w.rangeMax.CanShow) (hvalue : w.value.CanShow) :
    w.IsWritten :=
  forall_mem_shown hwidth hheight halign hx hy hmin hmax hvalue

/-! ## Entries -/

/-- An entry that holds only what source can say. -/
structure Entry.IsSourced (e : Entry) : Prop where
  kind : ∃ t, e.kind = .text t ∧ t.IsWord
  parent : ∃ t, e.parent = .text t
  text : e.text = .null ∨ ∃ t, e.text = .text t
  value : e.value.CanShow
  rangeMin : e.rangeMin.CanShow
  rangeMax : e.rangeMax.CanShow
  align : e.align = .null ∨ ∃ t, e.align = .text t
  styles : e.styles.AreTexts
  x : e.x.IsOffset
  y : e.y.IsOffset
  width : e.width.IsSourced
  height : e.height.IsSourced

namespace Entry

theorem isSourced_start {kind : Text} (hkind : kind.IsWord) (parent : Text) (line : Value) :
    (start (.text kind) (.text parent) line).IsSourced where
  kind := ⟨kind, rfl, hkind⟩
  parent := ⟨parent, rfl⟩
  text := .inl rfl
  value := ⟨_, rfl⟩
  rangeMin := ⟨_, rfl⟩
  rangeMax := ⟨_, rfl⟩
  align := .inl rfl
  styles := .empty
  x := Value.isOffset_zero
  y := Value.isOffset_zero
  width := ⟨[], rfl⟩
  height := ⟨[], rfl⟩

/-- What source can say keeps an entry so. -/
theorem IsSourced.apply {e : Entry} (he : e.IsSourced) {f : Fact} (hf : f.IsSourced) :
    (e.apply f).IsSourced := by
  obtain ⟨id, line, a⟩ := f
  have ha : a.IsSourced := hf.assertion
  have hassert : (e.assert a).IsSourced := by
    cases a with
    | declared type => exact he
    | created kind sourceName parent => exact { he with kind := ha.1, parent := ha.2 }
    | text t => exact { he with text := .inr ha }
    | size width height => exact { he with width := ha.1, height := ha.2 }
    | value v => exact { he with value := ha }
    | range min max => exact { he with rangeMin := ha.1, rangeMax := ha.2 }
    | style key v =>
      obtain ⟨t, rfl⟩ := ha
      exact { he with styles := he.styles.set key t }
    | align keyword x y => exact { he with align := .inr ha.1, x := ha.2.1, y := ha.2.2 }
    | center =>
      have hzero := Value.isOffset_zero
      exact { he with align := .inr ⟨_, rfl⟩, x := hzero, y := hzero }
    | position x y => exact { he with align := .inl rfl, x := ha.1, y := ha.2 }
  exact { hassert with }

variable {e : Entry} (he : e.IsSourced) (file : Value) (id : Text) (parent : Value)
include he

theorem IsSourced.isTyped : (e.toWidget file id parent).IsTyped where
  identifier := rfl
  kind := he.kind.imp fun _ ht => ht.1
  text := he.text
  known := he.styles.known
  extra := he.styles.extra

theorem IsSourced.isWritten : (e.toWidget file id parent).IsWritten := by
  refine Widget.isWritten_of_canShow he.width.canShow he.height.canShow ?_ he.x.canShow
    he.y.canShow he.rangeMin he.rangeMax he.value
  show e.align.CanShow
  rcases he.align with h | ⟨t, h⟩ <;> rw [h]
  · exact ⟨_, rfl⟩
  · exact Value.canShow_text t

end Entry

/-! ## Parsed files -/

namespace ParsedFile

theorem mem_toList_dressTree {file : Value} {entries : Table Entry} {w : Widget} (t : Tree Text)
    {parent : Value} (h : w ∈ (dressTree file entries parent t).toList) :
    ∃ id ∈ t.toList, ∃ p, w = widget file entries id p := by
  induction t using Tree.ind generalizing parent with
  | node id ts ih =>
    rw [dressTree, dressChildren_eq_map, Tree.toList, List.mem_cons] at h
    rw [Tree.toList]
    rcases h with rfl | h
    · exact ⟨id, List.mem_cons_self, parent, rfl⟩
    · rw [Forest.toList_eq_flatMap, List.flatMap_map, List.mem_flatMap] at h
      obtain ⟨t, ht, hw⟩ := h
      obtain ⟨id', hid', p, rfl⟩ := ih t ht hw
      refine ⟨id', List.mem_cons_of_mem _ ?_, p, rfl⟩
      rw [Forest.toList_eq_flatMap]
      exact List.mem_flatMap.2 ⟨t, ht, hid'⟩

/-- Every widget of a built file is made of an entry. -/
theorem exists_entry_of_mem_widgets {placeholders file : Value} {fs : List Fact} {w : Widget}
    (h : w ∈ Forest.toList (ofFacts placeholders file fs).widgets) :
    ∃ e ∈ (Collection.ofFacts fs).entries, ∃ p, w = e.2.toWidget file e.1 p := by
  have ho := Attachment.ordered_forest (Collection.nodup_keys_entries fs)
  rw [ofFacts, ofCollection, Forest.toList_eq_flatMap, List.flatMap_map, List.mem_flatMap] at h
  obtain ⟨t, ht, hw⟩ := h
  obtain ⟨id, hid, p, rfl⟩ := mem_toList_dressTree t hw
  have hmem : id ∈ (Collection.ofFacts fs).entries.keys := by
    refine ho.perm.subset ?_
    rw [Forest.toList_eq_flatMap]
    exact List.mem_flatMap.2 ⟨t, ht, hid⟩
  obtain ⟨e, he⟩ := Table.exists_get? hmem
  refine ⟨(id, e), Table.mem_of_get? he, p, ?_⟩
  rw [widget, he]
  rfl

section Source

variable (placeholders file : Value) (source : Text)

/-- The entries of a source text hold what source can say. -/
theorem isSourced_of_mem_entries :
    ∀ e ∈ (Collection.ofFacts (Extraction.facts .standard source)).entries, e.2.IsSourced := by
  refine Collection.forall_entries_ofFacts (P := Entry.IsSourced) ?_ ?_
  · intro f hf kind sourceName parent ha
    have hsourced := (Extraction.isSourced_of_mem_facts hf).assertion
    rw [ha] at hsourced
    obtain ⟨⟨kind, rfl, hkind⟩, ⟨parent, rfl⟩⟩ := hsourced
    exact Entry.isSourced_start hkind parent f.line
  · exact fun f hf e he => he.apply (Extraction.isSourced_of_mem_facts hf)

/-- A source text is always read. -/
theorem parse_texts (names : List Text) :
    parse (.texts names) file source = .ok (ofSource (.texts names) file source) := by
  have hparents := fun e he => (isSourced_of_mem_entries source e he).parent
  unfold parse build
  simp only
  rw [Attachment.fault?_texts names _ hparents]
  rfl

/-- What is parsed is what reading the source gives. -/
theorem parse_eq_extract (h : source.lines.length < 10 ^ Decimal.digitLimit) :
    parse placeholders file source =
      (Extraction.extract .standard source).1 >>= build placeholders file := by
  rw [Extraction.extract_standard h]
  rfl

/-- **The widgets of a source text** have words for names, they are typed, and all that is shown of
them can be written. -/
theorem isSourced_of_mem_widgets {w : Widget}
    (h : w ∈ Forest.toList (ofSource placeholders file source).widgets) :
    w.name.IsWord ∧ w.IsTyped ∧ w.IsWritten := by
  obtain ⟨⟨id, e⟩, he, p, rfl⟩ := exists_entry_of_mem_widgets h
  have hsourced : e.IsSourced := isSourced_of_mem_entries source (id, e) he
  refine ⟨?_, hsourced.isTyped file id p, hsourced.isWritten file id p⟩
  have hid : id ∈ Fact.createdIn (Extraction.facts .standard source) := by
    rw [← Collection.keys_entries_ofFacts]
    exact List.mem_map_of_mem (f := (·.1)) he
  obtain ⟨f, hf, hcreated⟩ := Fact.mem_createdIn.1 hid
  have hword := (Extraction.isSourced_of_mem_facts hf).identifier
  unfold Fact.created? at hcreated
  split at hcreated <;> cases hcreated
  exact hword

/-- The kinds of the widgets of a source text are words too. -/
theorem isWord_kind_of_mem_widgets {w : Widget}
    (h : w ∈ Forest.toList (ofSource placeholders file source).widgets) :
    ∃ kind, w.kind = .text kind ∧ kind.IsWord := by
  obtain ⟨⟨id, e⟩, he, p, rfl⟩ := exists_entry_of_mem_widgets h
  exact (isSourced_of_mem_entries source (id, e) he).kind

end Source

end ParsedFile

end LvglForest
