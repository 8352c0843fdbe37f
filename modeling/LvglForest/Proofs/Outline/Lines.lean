import LvglForest.Proofs.Outline
import Mathlib.Algebra.GroupWithZero.Nat

/-!
# How many lines an outline has

An outline puts each item into a line of its own, below two lines for its heading. What a source
text says is read line by line, so it cannot break an item, with one exception: a text may hold line
feeds that were escaped in its literal. The lines of an outline are its items and the line feeds of
the texts that it shows (`ParsedFile.lineCount_outline`).
-/

namespace LvglForest

/-! ## Counting lines -/

namespace Text

/-- The number of lines of a text that is split at its line feeds. -/
def lineCount (t : Text) : Nat := (splitOn (.char '\n') t).length

theorem lineCount_of_not_mem {t : Text} (h : .char '\n' ∉ t) : t.lineCount = 1 := by
  rw [lineCount, splitOn_of_not_mem h]
  rfl

/-- The lines of texts that are put together with line feeds are those of each text. -/
theorem lineCount_join {ts : List Text} (h : ts ≠ []) :
    (join "\n" ts).lineCount = (ts.map lineCount).sum := by
  have hsplit := congrArg List.length (splitOn_join_eq_flatMap (.char '\n') h)
  rw [List.length_flatMap] at hsplit
  exact hsplit

theorem sum_lineCount_of_inLine {ts : List Text} (h : ∀ t ∈ ts, t.InLine) :
    (ts.map lineCount).sum = ts.length := by
  have hone : ∀ t ∈ ts, t.lineCount = 1 := fun t ht => lineCount_of_not_mem ((h t ht).not_mem rfl)
  rw [List.map_congr_left hone, List.map_const', List.sum_replicate_nat, Nat.mul_one]

end Text

theorem holdsOfPrintable_inLine : HoldsOfPrintable fun p => p.isLineBreak = false := by
  intro p hlow hhigh
  simp only [CodePoint.isLineBreak, Bool.or_eq_false_iff, Bool.and_eq_false_iff,
    decide_eq_false_iff_not, beq_eq_false_iff_ne]
  omega

namespace Outline

/-! ## Properties -/

/-- How many properties of a widget are shown. -/
def propertyCount (w : Widget) : Nat :=
  [w.text.isNull, w.value.isNull, w.rangeMin.isNull || w.rangeMax.isNull, w.align.isNull,
    w.x.isZero && w.y.isZero, w.width.isAuto && w.height.isAuto].count false +
    w.styles.items.length

/-- How many line feeds the text of a widget holds. -/
def textFeeds (w : Widget) : Nat :=
  match w.text with
  | .text t => t.count (.char '\n')
  | _ => 0

theorem length_of_single {name : Text} {v : Value} {ps : List (Text × Text)}
    (h : single name v = .ok ps) : ps.length = [v.isNull].count false := by
  unfold single at h
  cases hnull : v.isNull with
  | true =>
    rw [hnull, if_pos rfl] at h
    cases h
    rfl
  | false =>
    rw [hnull, if_neg Bool.false_ne_true] at h
    obtain ⟨t, -, rfl⟩ := exists_of_map_eq_ok h
    rfl

theorem length_of_pair {name : Text} {both : Text → Text → Text} {isLeftOut : Bool}
    {q r : Except Fault Text} {ps : List (Text × Text)}
    (h : pair name both isLeftOut q r = .ok ps) : ps.length = [isLeftOut].count false := by
  unfold pair at h
  cases isLeftOut with
  | true =>
    cases h
    rfl
  | false =>
    obtain ⟨s, -, h⟩ := exists_of_bind_eq_ok h
    obtain ⟨t, -, h⟩ := exists_of_bind_eq_ok h
    cases h
    rfl

theorem length_of_properties {w : Widget} {ps : List (Text × Text)} (h : properties w = .ok ps) :
    ps.length = propertyCount w := by
  rw [properties_eq] at h
  obtain ⟨text, htext, h⟩ := exists_of_bind_eq_ok h
  obtain ⟨value, hvalue, h⟩ := exists_of_bind_eq_ok h
  obtain ⟨range, hrange, h⟩ := exists_of_bind_eq_ok h
  obtain ⟨align, halign, h⟩ := exists_of_bind_eq_ok h
  obtain ⟨position, hposition, h⟩ := exists_of_bind_eq_ok h
  obtain ⟨size, hsize, h⟩ := exists_of_bind_eq_ok h
  obtain ⟨styles, hstyles, h⟩ := exists_of_bind_eq_ok h
  cases h
  have hlength : styles.length = w.styles.items.length := by
    simpa using congrArg List.length
      (map_eq_of_mapM (m := fun _ => ()) (g := fun _ => ()) (fun _ _ _ _ => rfl) hstyles)
  simp only [List.length_append, length_of_single htext, length_of_single hvalue,
    length_of_pair hrange, length_of_single halign, length_of_pair hposition,
    length_of_pair hsize, hlength, ← List.count_append]
  rfl

/-- A text is shown before all other properties. -/
theorem properties_of_text {w : Widget} {t : Text} (h : w.text = .text t) :
    properties w =
      (properties { w with text := .null }).map fun ps => (("text" : Text), t) :: ps := by
  have hnone : single "text" .null = .ok [] := rfl
  have hone : single "text" (.text t) = .ok [("text", t)] := rfl
  have hmap {ε α β : Type} (f : α → β) (x : Except ε α) : x.map f = f <$> x := rfl
  have hok {α β : Type} (a : α) (f : α → Except Fault β) : (Except.ok a >>= f) = f a := rfl
  rw [properties_eq, properties_eq]
  simp only [h, hnone, hone, hmap, hok, map_bind, map_pure, List.nil_append, List.cons_append]

/-- The item of the text of a widget. -/
def textItem (d : Detail) (depth : Nat) (t : Text) : Text :=
  d.indentTo (depth + 1) ++ "- " ++ "text" ++ ": `" ++ t ++ "`"

theorem propertyItems_of_text (d : Detail) (depth : Nat) {w : Widget} {t : Text}
    (h : w.text = .text t) : propertyItems d depth w =
      (propertyItems d depth { w with text := .null }).map (textItem d depth t :: ·) := by
  unfold propertyItems
  rw [properties_of_text h]
  cases properties { w with text := .null } <;> rfl

theorem lineCount_textItem (d : Detail) (depth : Nat) (t : Text) :
    (textItem d depth t).lineCount = t.count (.char '\n') + 1 := by
  have hindent : (d.indentTo (depth + 1)).count (.char '\n') = 0 := by
    rw [List.count_eq_zero]
    exact Text.InLine.not_mem (madeOf_indentTo holdsOfPrintable_inLine d (depth + 1)) rfl
  have hfront : List.count (.char '\n') ("- " : Text) = 0 := by decide
  have hname : List.count (.char '\n') ("text" : Text) = 0 := by decide
  have hopen : List.count (.char '\n') (": `" : Text) = 0 := by decide
  have hclose : List.count (.char '\n') ("`" : Text) = 0 := by decide
  rw [Text.lineCount, Text.length_splitOn, textItem]
  simp only [List.count_append, hindent, hfront, hname, hopen, hclose, Nat.zero_add, Nat.add_zero]

section Widget

variable {d : Detail} {depth : Nat} {w : Widget}
  (hshown : w.ShownIn fun p => p.isLineBreak = false)
include hshown

/-- A widget without a text has each of its properties in one line. -/
theorem inLine_propertyItems (htext : w.text = .null) {items : List Text}
    (h : propertyItems d depth w = .ok items) : ∀ i ∈ items, i.InLine := by
  have hparts := (forall_propertyParts_iff holdsOfPrintable_inLine (.inl htext) hshown).2
    fun t ht => by cases htext.symm.trans ht
  have hyields := (yields_propertyItems holdsOfPrintable_inLine d depth w).2 hparts
  rw [h] at hyields
  exact yields_ok.1 hyields

/-- **The properties of a widget** are shown in as many lines as they are, and one more for each
line feed in the text. -/
theorem lineCount_propertyItems (htext : w.text = .null ∨ ∃ t, w.text = .text t)
    {items : List Text} (h : propertyItems d depth w = .ok items) :
    (items.map Text.lineCount).sum = propertyCount w + textFeeds w := by
  have hlength {w : Widget} {items : List Text} (h : propertyItems d depth w = .ok items) :
      items.length = propertyCount w := by
    obtain ⟨ps, hps, rfl⟩ := exists_of_map_eq_ok h
    rw [List.length_map, length_of_properties hps]
  rcases htext with htext | ⟨t, htext⟩
  · have hfeeds : textFeeds w = 0 := by rw [textFeeds, htext]
    rw [Text.sum_lineCount_of_inLine (inLine_propertyItems hshown htext h), hlength h, hfeeds]
    rfl
  · have hfeeds : textFeeds w = t.count (.char '\n') := by rw [textFeeds, htext]
    have hall := hlength h
    rw [propertyItems_of_text d depth htext] at h
    obtain ⟨others, hothers, rfl⟩ := exists_of_map_eq_ok h
    have hinLine := inLine_propertyItems (w := { w with text := .null }) { hshown with } rfl hothers
    rw [List.length_cons] at hall
    rw [List.map_cons, List.sum_cons, lineCount_textItem, Text.sum_lineCount_of_inLine hinLine,
      hfeeds, ← hall]
    omega

end Widget

/-! ## Items of widgets of source -/

section Source

variable {placeholders file : Value} {source : Text} {w : Widget}
  (hw : w ∈ Forest.toList (ParsedFile.ofSource placeholders file source).widgets)
include hw

/-- What an outline without properties shows of a widget of source stays in line. -/
theorem inLine_parts {d : Detail}
    (hlines : d = .verbose → w.source.first.CanShow ∧ w.source.last.CanShow) :
    ∀ r ∈ parts d false w, Yields Text.InLine r := by
  obtain ⟨hname, htyped, -⟩ := ParsedFile.isSourced_of_mem_widgets placeholders file source hw
  have hshown := ParsedFile.shownIn_of_mem_widgets hw holdsOfPrintable_inLine
    Text.inLine_of_mem_lines
  exact (forall_parts_iff holdsOfPrintable_inLine hname.inLine htyped hshown
    (ParsedFile.isFound_of_mem_widgets hw) d false).2 ⟨hlines, fun h => nomatch h⟩

/-- The item of a widget of source is one line. -/
theorem inLine_item {d : Detail} {depth : Nat}
    (hlines : d = .verbose → w.source.first.CanShow ∧ w.source.last.CanShow) {own : Text}
    (h : item d depth w = .ok own) : own.InLine := by
  have hparts := inLine_parts hw hlines
  rw [parts, if_neg Bool.false_ne_true, List.append_nil] at hparts
  have hyields := (yields_item holdsOfPrintable_inLine d depth w).2 hparts
  rw [h] at hyields
  exact yields_ok.1 hyields

/-- The lines that speak of a widget of source. -/
theorem lineCount_widgetItems {d : Detail} {showProperties : Bool} {depth : Nat}
    (hlines : d = .verbose → w.source.first.CanShow ∧ w.source.last.CanShow) {items : List Text}
    (h : widgetItems d showProperties (depth, w) = .ok items) :
    (items.map Text.lineCount).sum =
      1 + if showProperties then propertyCount w + textFeeds w else 0 := by
  obtain ⟨own, hown, h⟩ := exists_of_bind_eq_ok h
  have hone : own.lineCount = 1 :=
    Text.lineCount_of_not_mem ((inLine_item hw hlines hown).not_mem rfl)
  cases showProperties with
  | false =>
    cases h
    rw [List.map_singleton, List.sum_singleton, hone]
    rfl
  | true =>
    obtain ⟨others, hothers, rfl⟩ := exists_of_map_eq_ok h
    obtain ⟨-, htyped, -⟩ := ParsedFile.isSourced_of_mem_widgets placeholders file source hw
    have hshown := ParsedFile.shownIn_of_mem_widgets hw holdsOfPrintable_inLine
      Text.inLine_of_mem_lines
    rw [List.map_cons, List.sum_cons, hone, lineCount_propertyItems hshown htyped.text hothers]
    rfl

end Source

/-- How many items an outline of widgets has. -/
def itemCount (showProperties : Bool) (ws : List Widget) : Nat :=
  ws.length + if showProperties then (ws.map propertyCount).sum else 0

/-- How many line feeds the texts hold that an outline of widgets shows. -/
def feedCount (showProperties : Bool) (ws : List Widget) : Nat :=
  if showProperties then (ws.map textFeeds).sum else 0

theorem sum_eq_itemCount_add_feedCount (showProperties : Bool) (ws : List Widget) :
    (ws.map fun w => 1 + if showProperties then propertyCount w + textFeeds w else 0).sum =
      itemCount showProperties ws + feedCount showProperties ws := by
  cases showProperties <;> simp only [itemCount, feedCount, Bool.false_eq_true, if_true, if_false]
  all_goals
    induction ws with
    | nil => rfl
    | cons w ws ih =>
      simp only [List.map_cons, List.sum_cons, List.length_cons, ih]
      omega

theorem feedCount_eq_zero_iff {showProperties : Bool} {ws : List Widget} :
    feedCount showProperties ws = 0 ↔
      (showProperties = true → ∀ w ∈ ws, ∀ t, w.text = .text t → .char '\n' ∉ t) := by
  have hone (w : Widget) : textFeeds w = 0 ↔ ∀ t, w.text = .text t → .char '\n' ∉ t := by
    unfold textFeeds
    split
    · next t ht => simp [ht, List.count_eq_zero]
    · next hno => exact iff_of_true rfl fun t ht => absurd ht (hno t)
  cases showProperties with
  | false => simp [feedCount]
  | true => simp [feedCount, List.sum_eq_zero_iff_forall_eq_nat, hone]

/-- The heading over the outline of a file is one line if its name is. -/
theorem newline_not_mem_fileHeading {file : Text} (h : .char '\n' ∉ file) :
    .char '\n' ∉ fileHeading (Path.ofText file).name := by
  let P : CodePoint → Prop := fun p => p ≠ .char '\n'
  have hP : HoldsOfPrintable P := by
    rintro p hlow - rfl
    exact absurd hlow (by decide)
  have hslash : P (.char '/') := by decide
  have hfile : file.MadeOf P := fun p hp => ne_of_mem_of_not_mem hp h
  intro hmem
  exact (madeOf_fileHeading hP _).2 (Path.madeOf_name hslash hfile) _ hmem rfl

/-- The lines of the items of a forest of source. -/
theorem lineCount_forestItems {placeholders file : Value} {source : Text} {p : ParsedFile}
    (hp : p = .ofSource placeholders file source) {d : Detail} {showProperties : Bool} {depth : Nat}
    {items : List Text}
    (hlines : d = .verbose → ∀ w ∈ Forest.toList p.widgets,
      w.source.first.CanShow ∧ w.source.last.CanShow)
    (h : forestItems d showProperties depth p.widgets = .ok items) :
    (items.map Text.lineCount).sum =
      itemCount showProperties (Forest.toList p.widgets) +
        feedCount showProperties (Forest.toList p.widgets) := by
  subst hp
  let lines (w : Widget) : Nat := 1 + if showProperties then propertyCount w + textFeeds w else 0
  obtain ⟨groups, rfl, hgroups⟩ := exists_groups_of_forestItems
    (m := fun group => (group.map Text.lineCount).sum) (g := fun l => lines l.2)
    (fun n w hw group hgroup => lineCount_widgetItems hw (fun hd => hlines hd w hw) hgroup) h
  rw [← sum_eq_itemCount_add_feedCount, ← Forest.map_snd_levels depth, List.map_map,
    List.map_flatten, List.sum_flatten, List.map_map]
  exact congrArg List.sum hgroups

end Outline

/-! ## Outlines of source texts -/

namespace ParsedFile

open Outline

/-- There is an outline of a source text unless the numbers of its lines are too long to be
shown. -/
theorem exists_outline_iff {placeholders : Value} {file source : Text} {p : ParsedFile}
    (hp : p = ofSource placeholders (.text file) source) (d : Detail) (showProperties : Bool) :
    (∃ t, ofSubject d showProperties (.parsed p) = .ok t) ↔
      (d = .verbose → ∀ w ∈ Forest.toList p.widgets,
        w.source.first.CanShow ∧ w.source.last.CanShow) := by
  subst hp
  -- Whether there is an outline is asked with a property that no code point lacks.
  let P : CodePoint → Prop := fun _ => True
  have hP : HoldsOfAscii P := fun _ _ => trivial
  have hmade (t : Text) : t.MadeOf P := fun _ _ => trivial
  have hexists (r : Except Fault Text) : (∃ t, r = .ok t) ↔ Yields (Text.MadeOf P) r :=
    exists_congr fun t => (and_iff_left (hmade t)).symm
  rw [hexists, yields_ofSubject_parsed d showProperties rfl hP, and_iff_right (hmade _)]
  have hone : ∀ w ∈ Forest.toList (ofSource placeholders (.text file) source).widgets,
      ((∀ r ∈ parts d showProperties w, Yields (Text.MadeOf P) r) ↔
        (d = .verbose → w.source.first.CanShow ∧ w.source.last.CanShow)) := by
    intro w hw
    obtain ⟨-, htyped, -⟩ := isSourced_of_mem_widgets placeholders (.text file) source hw
    rw [forall_parts_iff hP.printable (hmade _) htyped
      (shownIn_of_mem_widgets hw hP.printable fun l _ => hmade l) (isFound_of_mem_widgets hw),
      and_iff_left fun _ t _ => hmade t]
  constructor
  · intro h hd w hw
    exact (hone w hw).1 (h w hw) hd
  · intro h w hw
    exact (hone w hw).2 fun hd => h hd w hw

/-- **The lines of an outline of a source text** are two for the heading, one for each widget, one
for each property that is shown, and one more for each line feed in a text that is shown. So there
is one line for each item exactly if no text that is shown holds a line feed. -/
theorem lineCount_outline (names : List Text) {file : Text} (hfile : .char '\n' ∉ file)
    (source : Text) (d : Detail) (showProperties : Bool) :
    ∃ p, parse (.texts names) (.text file) source = .ok p ∧
      ((∃ t, ofSubject d showProperties (.parsed p) = .ok t) ↔
        (d = .verbose → ∀ w ∈ Forest.toList p.widgets,
          w.source.first.CanShow ∧ w.source.last.CanShow)) ∧
      ∀ t, ofSubject d showProperties (.parsed p) = .ok t →
        t.lineCount = 2 + itemCount showProperties (Forest.toList p.widgets) +
            feedCount showProperties (Forest.toList p.widgets) ∧
          (t.lineCount = 2 + itemCount showProperties (Forest.toList p.widgets) ↔
            (showProperties = true →
              ∀ w ∈ Forest.toList p.widgets, ∀ u, w.text = .text u → .char '\n' ∉ u)) := by
  let p := ofSource (.texts names) (.text file) source
  have hp : p = ofSource (.texts names) (.text file) source := rfl
  have hname : p.fileName = .text file := rfl
  have hexists := exists_outline_iff hp d showProperties
  refine ⟨p, parse_texts (.text file) source names, hexists, ?_⟩
  intro t ht
  have hlines := hexists.1 ⟨t, ht⟩
  rw [ofSubject_eq d showProperties hname] at ht
  obtain ⟨items, hitems, rfl⟩ := exists_of_map_eq_ok ht
  have hheading := Text.lineCount_of_not_mem (newline_not_mem_fileHeading hfile)
  have hempty : Text.lineCount [] = 1 := rfl
  have hcount : (Text.join "\n" (fileHeading (Path.ofText file).name :: [] :: items)).lineCount =
      2 + itemCount showProperties (Forest.toList p.widgets) +
        feedCount showProperties (Forest.toList p.widgets) := by
    rw [Text.lineCount_join (List.cons_ne_nil _ _)]
    simp only [List.map_cons, List.sum_cons, hheading, hempty,
      lineCount_forestItems hp hlines hitems]
    omega
  rw [hcount, ← feedCount_eq_zero_iff]
  exact ⟨rfl, Nat.add_eq_left⟩

/-- A label, whose text is shown in two lines. -/
theorem lineCount_outline_twoLines :
    let source : Text := "l = lv_label_create(parent);\nlv_label_set_text(l, \"a\\nb\");"
    .char '\n' ∉ ("a.cpp" : Text) ∧
      ∃ p, parse (.texts ["parent"]) (.text "a.cpp") source = .ok p ∧
        ∃ t, ofSubject .concise true (.parsed p) = .ok t ∧ t.lineCount = 5 := by
  repeat rw [Text.ofString_ofList]
  intro source
  have hfile : .char '\n' ∉ ("a.cpp" : Text) := by decide
  obtain ⟨p, hp, hexists, hcount⟩ := lineCount_outline ["parent"] hfile source .concise true
  have hsame : p = ofSource (.texts ["parent"]) (.text "a.cpp") source :=
    Except.ok.inj (hp.symm.trans (parse_texts _ source ["parent"]))
  obtain ⟨t, ht⟩ := hexists.2 fun h => nomatch h
  refine ⟨hfile, p, hp, t, ht, ?_⟩
  rw [(hcount t ht).1, hsame]
  decide +kernel

/-- A text that holds line feeds forges the item of a widget that does not exist. -/
theorem lineCount_outline_forged :
    let source : Text :=
      "l = lv_label_create(parent);\nlv_label_set_text(l, \"a\\n- **ok** (button)\\n\");"
    ∃ p t, parse Attachment.defaultPlaceholders (.text "a.cpp") source = .ok p ∧
      ofSubject .concise true (.parsed p) = .ok t ∧
      t.lineCount ≠ 2 + itemCount true (Forest.toList p.widgets) ∧
      ("- **ok** (button)" : Text) ∈ Text.splitOn (.char '\n') t ∧
      (Forest.toList p.widgets).length = 1 := by
  repeat rw [Text.ofString_ofList]
  intro source
  let p := ofSource Attachment.defaultPlaceholders (.text "a.cpp") source
  let shown : Text := "# a.cpp Hierarchy\n\n- **l** (label)\n  - text: `a\n- **ok** (button)\n`"
  have hopened : shown = _ := Text.ofString_ofList _
  have hrun : (ofSubject .concise true (.parsed p)).toOption = some shown ∧
      shown.lineCount ≠ 2 + itemCount true (Forest.toList p.widgets) ∧
      (Forest.toList p.widgets).length = 1 := by
    rw [hopened]
    decide +kernel
  obtain ⟨hshown, hcount, hone⟩ := hrun
  have hforged : ("- **ok** (button)" : Text) ∈ Text.splitOn (.char '\n') shown := by
    rw [hopened, Text.ofString_ofList]
    decide +kernel
  exact ⟨p, shown, parse_texts _ source _, eq_ok_of_toOption hshown, hcount, hforged, hone⟩

end ParsedFile

end LvglForest
