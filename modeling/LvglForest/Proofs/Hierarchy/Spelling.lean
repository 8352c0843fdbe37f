import LvglForest.Proofs.Code.Spelling
import LvglForest.Proofs.Fact.Division
import LvglForest.Proofs.Fact.Spelling
import LvglForest.Proofs.Hierarchy.Source

/-!
# How the widgets of source are spelled

What is known of a widget of a source text shows in the code points of its lines, but for its text
(`ParsedFile.shownIn_of_mem_widgets`), and the lines that it was found in are numbers from one on
(`ParsedFile.isFound_of_mem_widgets`). So what generated code shows of it is made of these code
points too (`Widget.ShownIn.spells`).
-/

namespace LvglForest

variable {P : CodePoint → Prop}

/-- Styles show in certain code points. -/
structure Styles.ShownIn (P : CodePoint → Prop) (s : Styles) : Prop where
  known : ∀ k v, s.known k = some v → v.ShownIn P
  extra : ∀ e ∈ s.extra, e.1.MadeOf P ∧ e.2.ShownIn P

namespace Styles.ShownIn

theorem empty : ShownIn P {} where
  known _ _ h := nomatch h
  extra _ h := nomatch h

variable {s : Styles} (h : s.ShownIn P)
include h

theorem set {key : Text} {v : Value} (hkey : key.MadeOf P) (hv : v.ShownIn P) :
    (s.set key v).ShownIn P := by
  unfold Styles.set
  split
  · refine ⟨fun k u hu => ?_, h.extra⟩
    simp only at hu
    split at hu
    · split at hu <;> cases hu
      exact hv
    · exact h.known k u hu
  · exact ⟨h.known, Table.forall_mem_put h.extra ⟨hkey, hv⟩⟩

theorem items (hP : HoldsOfPrintable P) : ∀ i ∈ s.items, i.1.MadeOf P ∧ i.2.ShownIn P := by
  intro i hi
  rcases List.mem_append.1 hi with hi | hi
  · obtain ⟨k, -, hk⟩ := List.mem_filterMap.1 hi
    obtain ⟨v, hv, rfl⟩ := Option.map_eq_some_iff.1 hk
    have hname : k.name.MadeOf P := Text.madeOf_of_printable hP (by cases k <;> decide)
    exact ⟨hname, h.known k v hv⟩
  · exact h.extra i hi

end Styles.ShownIn

/-! ## Widgets -/

namespace Widget

/-- What is known of a widget shows in certain code points, but for its name and its text. -/
structure ShownIn (P : CodePoint → Prop) (w : Widget) : Prop where
  kind : w.kind.ShownIn P
  value : w.value.ShownIn P
  rangeMin : w.rangeMin.ShownIn P
  rangeMax : w.rangeMax.ShownIn P
  align : w.align.ShownIn P
  styles : w.styles.ShownIn P
  x : w.x.ShownIn P
  y : w.y.ShownIn P
  width : w.width.ShownIn P
  height : w.height.ShownIn P

/-- The lines that a widget was found in are numbers from one on. -/
structure IsFound (w : Widget) : Prop where
  first : ∃ n : Nat, 1 ≤ n ∧ w.source.first = .integer n
  last : ∃ n : Nat, 1 ≤ n ∧ w.source.last = .integer n

/-- **Generated code shows of a widget** what shows of it and its text. -/
theorem ShownIn.spells (hP : HoldsOfPrintable P) {w : Widget} (h : w.ShownIn P)
    (hname : w.name.MadeOf P) (htext : ∀ t, w.text = .text t → t.MadeOf P) (d : Detail) :
    w.Spells P d where
  name := hname
  kind _ t ht := Value.shownIn_text.1 (ht ▸ h.kind)
  shown t ht := by
    have hall : ∀ r ∈ w.shown, Yields (Text.MadeOf P) r :=
      forall_mem_shown ((Size.yields_toSource_iff hP).2 h.width)
        ((Size.yields_toSource_iff hP).2 h.height) h.align h.x h.y h.rangeMin h.rangeMax h.value
    exact yields_ok.1 (hall _ ht)
  text _ t ht p hp := .inr (htext t ht p hp)
  styles i hi := by
    obtain ⟨hkey, hv⟩ := h.styles.items hP i hi
    exact ⟨hkey, fun t ht => Value.shownIn_text.1 (ht ▸ hv)⟩

end Widget

/-! ## Entries -/

section Entries

variable (hP : HoldsOfPrintable P)
include hP

theorem Entry.shownIn_start {kind : Value} (hkind : kind.ShownIn P) (reference line file : Value)
    (id : Text) (parent : Value) :
    ((start kind reference line).toWidget file id parent).ShownIn P where
  kind := hkind
  value := Value.shownIn_null hP
  rangeMin := Value.shownIn_null hP
  rangeMax := Value.shownIn_null hP
  align := Value.shownIn_null hP
  styles := .empty
  x := Value.isOffset_zero.shownIn hP
  y := Value.isOffset_zero.shownIn hP
  width := Size.shownIn_auto hP
  height := Size.shownIn_auto hP

/-- What is said keeps an entry so. -/
theorem Entry.shownIn_apply {e : Entry} {file : Value} {id : Text} {parent : Value}
    (he : (e.toWidget file id parent).ShownIn P) {f : Fact} (hf : f.assertion.ShownIn P) :
    ((e.apply f).toWidget file id parent).ShownIn P := by
  obtain ⟨id', line, a⟩ := f
  have hzero := Value.isOffset_zero.shownIn hP
  have hassert : ((e.assert a).toWidget file id parent).ShownIn P := by
    cases a with
    | declared type => exact he
    | created kind sourceName parent => exact { he with kind := hf }
    | text t => exact { he with }
    | size width height => exact { he with width := hf.1, height := hf.2 }
    | value v => exact { he with value := hf }
    | range min max => exact { he with rangeMin := hf.1, rangeMax := hf.2 }
    | style key v => exact { he with styles := he.styles.set hf.1 hf.2 }
    | align keyword x y => exact { he with align := hf.1, x := hf.2.1, y := hf.2.2 }
    | center =>
      have hkeyword : Anchor.middle.keyword.MadeOf P := Text.madeOf_of_printable hP (by decide)
      exact { he with align := Value.shownIn_text.2 hkeyword, x := hzero, y := hzero }
    | position x y => exact { he with align := Value.shownIn_null hP, x := hf.1, y := hf.2 }
  exact { hassert with }

end Entries

theorem Entry.isFound_apply {e : Entry} {file : Value} {id : Text} {parent : Value}
    (he : (e.toWidget file id parent).IsFound) {f : Fact} {n : Nat} (hn : 1 ≤ n)
    (hf : f.line = .integer n) : ((e.apply f).toWidget file id parent).IsFound := by
  obtain ⟨id', line, a⟩ := f
  cases a <;> exact ⟨he.first, n, hn, hf⟩

/-! ## Parsed files -/

/-- The line of a fact is a number from one on. -/
theorem Extraction.exists_line_of_mem_facts {source : Text} {f : Fact}
    (h : f ∈ facts .standard source) : ∃ n : Nat, 1 ≤ n ∧ f.line = .integer n := by
  rw [facts_eq_factsFrom] at h
  obtain ⟨numbers, hnumbers, hlines⟩ := exists_numbers_factsFrom false 1 source.lines
  have hline : f.line ∈ numbers.map fun n : Nat => Value.integer n :=
    hlines ▸ List.mem_map_of_mem h
  obtain ⟨n, hn, heq⟩ := List.mem_map.1 hline
  exact ⟨n, hnumbers.first_le n hn, heq.symm⟩

namespace ParsedFile

variable {placeholders file : Value} {source : Text} {w : Widget}
  (h : w ∈ Forest.toList (ofSource placeholders file source).widgets)
include h

/-- **The widgets of a source text** show in the code points of its lines, but for their texts. -/
theorem shownIn_of_mem_widgets (hP : HoldsOfPrintable P) (hlines : ∀ l ∈ source.lines, l.MadeOf P) :
    w.ShownIn P := by
  obtain ⟨⟨id, e⟩, he, p, rfl⟩ := exists_entry_of_mem_widgets h
  refine Collection.forall_entries_ofFacts (P := fun e => (e.toWidget file id p).ShownIn P) ?_ ?_
    (id, e) he
  · intro f hf kind sourceName parent ha
    have hshown := Extraction.shownIn_of_mem_facts hP hlines hf
    rw [ha] at hshown
    exact Entry.shownIn_start hP hshown parent f.line file id p
  · exact fun f hf e he =>
      Entry.shownIn_apply hP he (Extraction.shownIn_of_mem_facts hP hlines hf)

theorem isFound_of_mem_widgets : w.IsFound := by
  obtain ⟨⟨id, e⟩, he, p, rfl⟩ := exists_entry_of_mem_widgets h
  refine Collection.forall_entries_ofFacts (P := fun e => (e.toWidget file id p).IsFound) ?_ ?_
    (id, e) he
  · intro f hf kind sourceName parent _
    have hline := Extraction.exists_line_of_mem_facts hf
    exact ⟨hline, hline⟩
  · intro f hf e he
    obtain ⟨n, hn, hline⟩ := Extraction.exists_line_of_mem_facts hf
    exact Entry.isFound_apply he hn hline

end ParsedFile

end LvglForest
