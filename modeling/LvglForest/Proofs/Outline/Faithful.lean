import LvglForest.Proofs.Outline.Lines

/-!
# What an outline without properties shows

Each item can be read back: its indentation tells the depth, and the punctuation around the name and
the kind, which are words, tells the two (`Outline.readItem_item`). The depths determine the forest,
so an outline of a source text shows the names and the kinds of all widgets at their places
(`ParsedFile.outline_faithful`).
-/

namespace LvglForest

/-- An indentation is made of blanks. -/
theorem Detail.indentTo_eq_replicate (d : Detail) (depth : Nat) :
    d.indentTo depth = List.replicate (depth * d.indent.length) (.char ' ') := by
  have hindent : d.indent = List.replicate d.indent.length (.char ' ') := by cases d <;> decide
  rw [indentTo]
  conv_lhs => rw [hindent]
  rw [List.flatten_replicate_replicate]

/-- The name and the kind of a widget. -/
def Widget.tag (w : Widget) : Value × Value := (w.identifier, w.kind)

namespace Outline

/-! ## Reading an item -/

/-- The depth, the name and the kind that an item shows. -/
def readItem (d : Detail) (t : Text) : Nat × Value × Value :=
  let named := (t.dropWhile (· = .char ' ')).drop 4
  ((t.takeWhile (· = .char ' ')).length / d.indent.length,
    .text (named.takeWhile CodePoint.isWord),
    .text (((named.dropWhile CodePoint.isWord).drop 4).takeWhile CodePoint.isWord))

theorem readItem_append (d : Detail) (depth : Nat) {name kind : Text} (hname : name.IsWord)
    (hkind : kind.IsWord) (note : Text) :
    readItem d (d.indentTo depth ++ ("- **" : Text) ++ name ++ "** (" ++ kind ++ ")" ++ note) =
      (depth, .text name, .text kind) := by
  let afterKind : Text := ")" ++ note
  let afterName : Text := "** (" ++ (kind ++ afterKind)
  let item : Text := "- **" ++ (name ++ afterName)
  let blanks : Text := List.replicate (depth * d.indent.length) (.char ' ')
  have hwhole : d.indentTo depth ++ ("- **" : Text) ++ name ++ "** (" ++ kind ++ ")" ++ note =
      blanks ++ item := by
    simp only [item, afterName, afterKind, blanks, List.append_assoc, Detail.indentTo_eq_replicate]
  have hblank : ∀ p ∈ blanks, decide (p = .char ' ') = true :=
    fun p hp => decide_eq_true (List.eq_of_mem_replicate hp)
  have hafterName : Text.EndsWord afterName := Text.endsWord_cons (by decide +kernel) _
  have hafterKind : Text.EndsWord afterKind := Text.endsWord_cons (by decide +kernel) _
  have hnamed : (item.dropWhile (· = .char ' ')).drop 4 = name ++ afterName := rfl
  have hkinded : afterName.drop 4 = kind ++ afterKind := rfl
  have hnone : item.takeWhile (· = .char ' ') = [] := rfl
  have hdepth : depth * d.indent.length / d.indent.length = depth :=
    Nat.mul_div_cancel depth (by cases d <;> decide)
  rw [hwhole, readItem, List.takeWhile_append_of_pos hblank, List.dropWhile_append_of_pos hblank,
    hnamed, Text.takeWhile_word hname.all hafterName, Text.dropWhile_word hname.all hafterName,
    hkinded, Text.takeWhile_word hkind.all hafterKind, hnone, List.append_nil,
    List.length_replicate, hdepth]

/-- **The item of a widget of source** is read back. -/
theorem readItem_item {placeholders file : Value} {source : Text} {w : Widget}
    (hw : w ∈ Forest.toList (ParsedFile.ofSource placeholders file source).widgets) {d : Detail}
    {depth : Nat} {own : Text} (h : item d depth w = .ok own) :
    readItem d own = (depth, w.tag) := by
  obtain ⟨hname, htyped, -⟩ := ParsedFile.isSourced_of_mem_widgets placeholders file source hw
  obtain ⟨kind, hkind, hword⟩ :=
    ParsedFile.isWord_kind_of_mem_widgets placeholders file source hw
  have hgiven : (Value.text w.name).orElse (.text "?") = .text w.name := if_pos <| by
    simpa [Value.isTrue] using hname.ne_nil
  unfold item at h
  rw [htyped.identifier, hgiven, hkind] at h
  obtain ⟨_, hshownName, h⟩ := exists_of_bind_eq_ok h
  obtain ⟨_, hshownKind, h⟩ := exists_of_bind_eq_ok h
  obtain ⟨note, -, h⟩ := exists_of_bind_eq_ok h
  cases hshownName
  cases hshownKind
  cases h
  rw [readItem_append d depth hname hword, Widget.tag, htyped.identifier, hkind]

/-! ## Reading an outline -/

section Source

variable {placeholders file : Value} {source : Text} {p : ParsedFile}
  (hp : p = .ofSource placeholders file source) {d : Detail} {depth : Nat} {items : List Text}
  (h : forestItems d false depth p.widgets = .ok items)
include hp h

/-- **The items of a forest of source** tell its names and kinds with their depths. -/
theorem map_readItem_forestItems :
    items.map (readItem d) = Forest.levels depth (Forest.relabel Widget.tag p.widgets) := by
  subst hp
  have hone : ∀ n, ∀ w ∈ Forest.toList (ParsedFile.ofSource placeholders file source).widgets,
      ∀ group, widgetItems d false (n, w) = .ok group →
        group.map (readItem d) = [(n, w.tag)] := by
    intro n w hw group hgroup
    obtain ⟨own, hown, hgroup⟩ := exists_of_bind_eq_ok hgroup
    cases hgroup
    rw [List.map_singleton, readItem_item hw hown]
  obtain ⟨groups, rfl, hgroups⟩ := exists_groups_of_forestItems
    (m := List.map (readItem d)) (g := fun l => [(l.1, l.2.tag)]) hone h
  rw [List.map_flatten, hgroups, Forest.levels_relabel, ← List.flatMap_def, ← List.map_eq_flatMap]

theorem inLine_forestItems
    (hlines : d = .verbose → ∀ w ∈ Forest.toList p.widgets,
      w.source.first.CanShow ∧ w.source.last.CanShow) : ∀ i ∈ items, i.InLine := by
  subst hp
  have hyields := (yields_forestItems holdsOfPrintable_inLine d false depth _).2
    fun w hw => inLine_parts hw fun hd => hlines hd w hw
  rw [h] at hyields
  exact yields_ok.1 hyields

end Source

/-- A concise outline shows nothing but the names and the kinds. -/
theorem forestItems_concise (depth : Nat) {ts us : Forest Widget}
    (h : Forest.relabel Widget.tag ts = Forest.relabel Widget.tag us) :
    forestItems .concise false depth ts = forestItems .concise false depth us := by
  let shown (l : Nat × Value × Value) : Except Fault (List Text) := do
    let identifier ← (l.2.1.orElse (.text "?")).display
    let kind ← l.2.2.display
    return [Detail.concise.indentTo l.1 ++ "- **" ++ identifier ++ "** (" ++ kind ++ ")" ++ ""]
  have hshown (ts : Forest Widget) : forestItems .concise false depth ts =
      ((Forest.levels depth (Forest.relabel Widget.tag ts)).mapM shown).map List.flatten := by
    have hitem : widgetItems .concise false = shown ∘ fun l => (l.1, l.2.tag) := by
      funext l
      simp only [widgetItems, item, sourceNote, Bool.false_eq_true, if_false, bind_assoc, pure_bind]
      rfl
    rw [forestItems_eq, Forest.levels_relabel, List.mapM_map, hitem]
  rw [hshown, hshown, h]

end Outline

/-! ## Outlines of source texts -/

namespace ParsedFile

open Outline

/-- The names and the kinds of the widgets at their places. -/
def shape (p : ParsedFile) : Forest (Value × Value) := Forest.relabel Widget.tag p.widgets

/-- Two parsed files have the same outline without properties. -/
def SameOutline (d : Detail) (p q : ParsedFile) : Prop :=
  ∃ t, ofSubject d false (.parsed p) = .ok t ∧ ofSubject d false (.parsed q) = .ok t

theorem shape_eq_of_sameOutline {placeholders placeholders' : Value} {file source source' : Text}
    {p q : ParsedFile} (hp : p = ofSource placeholders (.text file) source)
    (hq : q = ofSource placeholders' (.text file) source') {d : Detail} (h : SameOutline d p q) :
    p.shape = q.shape := by
  obtain ⟨t, hpt, hqt⟩ := h
  have hplines := (exists_outline_iff hp d false).1 ⟨t, hpt⟩
  have hqlines := (exists_outline_iff hq d false).1 ⟨t, hqt⟩
  have hpname : p.fileName = .text file := by rw [hp]; rfl
  have hqname : q.fileName = .text file := by rw [hq]; rfl
  rw [ofSubject_eq d false hpname] at hpt
  rw [ofSubject_eq d false hqname] at hqt
  obtain ⟨items, hitems, rfl⟩ := exists_of_map_eq_ok hpt
  obtain ⟨items', hitems', hsame⟩ := exists_of_map_eq_ok hqt
  have hsplit {items : List Text} (h : ∀ i ∈ items, i.InLine) :
      Text.splitOn (.char '\n') (Text.join [.char '\n'] ([] :: items)) = [] :: items := by
    refine Text.splitOn_join (List.cons_ne_nil _ _) ?_
    rw [List.forall_mem_cons]
    exact ⟨List.not_mem_nil, fun i hi => (h i hi).not_mem rfl⟩
  rw [Text.join_cons_of_ne_nil _ _ (List.cons_ne_nil _ _),
    Text.join_cons_of_ne_nil _ _ (List.cons_ne_nil _ _)] at hsame
  -- The headings are the same whatever they hold, so the rest is split into the items.
  have hrest : [] :: items' = [] :: items := by
    rw [← hsplit (inLine_forestItems hq hitems' hqlines),
      ← hsplit (inLine_forestItems hp hitems hplines)]
    exact congrArg _ (List.append_cancel_left hsame)
  obtain rfl := (List.cons.inj hrest).2
  apply Forest.levels_injective 0
  rw [shape, shape, ← map_readItem_forestItems hp hitems, ← map_readItem_forestItems hq hitems']

/-- **An outline without properties is faithful.** Two source texts under one file name have the
same outline in either form only if their widgets have the same names and kinds at the same places,
and have the same concise one exactly then. -/
theorem outline_faithful {names names' : List Text} {file source source' : Text} {p q : ParsedFile}
    (hp : parse (.texts names) (.text file) source = .ok p)
    (hq : parse (.texts names') (.text file) source' = .ok q) :
    (∀ d, SameOutline d p q → p.shape = q.shape) ∧
      (SameOutline .concise p q ↔ p.shape = q.shape) := by
  have hp := Except.ok.inj (hp.symm.trans (parse_texts (.text file) source names))
  have hq := Except.ok.inj (hq.symm.trans (parse_texts (.text file) source' names'))
  refine ⟨fun d => shape_eq_of_sameOutline hp hq, shape_eq_of_sameOutline hp hq, ?_⟩
  intro hshape
  obtain ⟨t, ht⟩ := (exists_outline_iff hp .concise false).2 fun h => nomatch h
  have hpname : p.fileName = .text file := by rw [hp]; rfl
  have hqname : q.fileName = .text file := by rw [hq]; rfl
  refine ⟨t, ht, ?_⟩
  rw [ofSubject_eq .concise false hqname, ← forestItems_concise 0 hshape,
    ← ofSubject_eq .concise false hpname, ht]

/-- Two spellings of a container with a label in it. -/
theorem outline_faithful_respelled :
    let source : Text := "a = lv_obj_create(parent);\nb = lv_label_create(a);"
    let source' : Text :=
      "lv_obj_t * b = lv_label_create(a);\nlv_obj_set_pos(b, 1, 2);\na = lv_obj_create(scr);"
    ∃ p q, parse (.texts ["parent"]) (.text "a.cpp") source = .ok p ∧
      parse (.texts ["scr"]) (.text "a.cpp") source' = .ok q ∧ SameOutline .concise p q ∧
      p.shape = q.shape := by
  repeat rw [Text.ofString_ofList]
  intro source source'
  have hp := parse_texts (.text "a.cpp") source ["parent"]
  have hq := parse_texts (.text "a.cpp") source' ["scr"]
  have hsame : SameOutline .concise (ofSource (.texts ["parent"]) (.text "a.cpp") source)
      (ofSource (.texts ["scr"]) (.text "a.cpp") source') := by
    refine ⟨"# a.cpp Hierarchy\n\n- **a** (container)\n  - **b** (label)",
      eq_ok_of_toOption ?_, eq_ok_of_toOption ?_⟩ <;>
      repeat rw [Text.ofString_ofList]
    · decide +kernel
    · decide +kernel
  exact ⟨_, _, hp, hq, hsame, (outline_faithful hp hq).1 .concise hsame⟩

end ParsedFile

end LvglForest
