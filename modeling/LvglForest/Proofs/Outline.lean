import LvglForest.Outline
import LvglForest.Proofs.Forest.Levels
import LvglForest.Proofs.Hierarchy.Spelling

/-!
# How outlines are spelled

An outline is put together widget by widget, each at its depth (`Outline.forestItems_eq`). It shows
names, kinds, lines and properties between ASCII words, so it is there, and made of certain code
points, exactly if all these parts are (`Outline.yields_forestItems`,
`Outline.yields_ofSubject_parsed`). Of a widget of source only the text and the numbers of the lines
can be in the way (`Outline.forall_parts_iff`).
-/

namespace LvglForest

namespace Outline

variable {P : CodePoint → Prop}

/-! ## The parts of a widget -/

/-- The lines of a widget that are shown. -/
def noteParts (d : Detail) (w : Widget) : List (Except Fault Text) :=
  match d with
  | .concise => []
  | .verbose =>
    if w.source.first.isTrue then [w.source.first.display, w.source.last.display] else []

/-- What the items of the properties of a widget show. -/
def propertyParts (w : Widget) : List (Except Fault Text) :=
  (if w.text.isNull then [] else [w.text.display]) ++
    (if w.value.isNull then [] else [w.value.display]) ++
    (if w.rangeMin.isNull || w.rangeMax.isNull then []
      else [w.rangeMin.display, w.rangeMax.display]) ++
    (if w.align.isNull then [] else [w.align.display]) ++
    (if w.x.isZero && w.y.isZero then [] else [w.x.display, w.y.display]) ++
    (if w.width.isAuto && w.height.isAuto then [] else [w.width.display, w.height.display]) ++
    w.styles.items.flatMap fun (k, v) => [.ok k, v.display]

/-- What an outline shows of a widget. -/
def parts (d : Detail) (showProperties : Bool) (w : Widget) : List (Except Fault Text) :=
  [(w.identifier.orElse (.text "?")).display, w.kind.display] ++ noteParts d w ++
    if showProperties then propertyParts w else []

/-- The names and the texts of properties are made of certain code points. -/
def PairsMadeOf (P : CodePoint → Prop) (ps : List (Text × Text)) : Prop :=
  ∀ p ∈ ps, p.1.MadeOf P ∧ p.2.MadeOf P

theorem pairsMadeOf_append {ps qs : List (Text × Text)} :
    PairsMadeOf P (ps ++ qs) ↔ PairsMadeOf P ps ∧ PairsMadeOf P qs :=
  List.forall_mem_append

/-- A property by itself shows its value. -/
theorem yields_single {name : Text} (hname : name.MadeOf P) (v : Value) :
    Yields (PairsMadeOf P) (single name v) ↔
      ∀ r ∈ (if v.isNull then [] else [v.display] : List (Except Fault Text)),
        Yields (Text.MadeOf P) r := by
  unfold single
  split
  · simp [PairsMadeOf]
  · rw [yields_map, List.forall_mem_singleton]
    exact yields_congr fun t => List.forall_mem_singleton.trans (and_iff_right hname)

/-- Two values as one property, unless it is left out. -/
def pair (name : Text) (both : Text → Text → Text) (isLeftOut : Bool) (q r : Except Fault Text) :
    Except Fault (List (Text × Text)) :=
  if isLeftOut then .ok []
  else do
    let s ← q
    let t ← r
    return [(name, both s t)]

/-- The properties of a widget one after the other. -/
theorem properties_eq (w : Widget) : properties w = do
    let text ← single "text" w.text
    let value ← single "value" w.value
    let range ← pair "range" (fun s t => s ++ ".." ++ t) (w.rangeMin.isNull || w.rangeMax.isNull)
      w.rangeMin.display w.rangeMax.display
    let align ← single "align" w.align
    let position ← pair "position" (fun s t => "(" ++ s ++ ", " ++ t ++ ")")
      (w.x.isZero && w.y.isZero) w.x.display w.y.display
    let size ← pair "size" (fun s t => s ++ " x " ++ t) (w.width.isAuto && w.height.isAuto)
      w.width.display w.height.display
    let styles ← w.styles.items.mapM fun (k, v) => v.display.map ((("style." : Text) ++ k), ·)
    return text ++ value ++ range ++ align ++ position ++ size ++ styles := by
  unfold properties pair
  cases w.rangeMin.isNull || w.rangeMax.isNull <;> cases w.x.isZero && w.y.isZero <;>
    cases w.width.isAuto && w.height.isAuto <;>
    simp only [Bool.false_eq_true, if_true, if_false, bind_assoc, pure_bind] <;> rfl

/-- A property that shows two values together shows both of them. -/
theorem yields_pair {name : Text} (hname : name.MadeOf P) {both : Text → Text → Text}
    (hboth : ∀ s t, (both s t).MadeOf P ↔ s.MadeOf P ∧ t.MadeOf P) (isLeftOut : Bool)
    (q r : Except Fault Text) :
    Yields (PairsMadeOf P) (pair name both isLeftOut q r) ↔
      ∀ u ∈ (if isLeftOut then [] else [q, r] : List (Except Fault Text)),
        Yields (Text.MadeOf P) u := by
  have hone (s t : Text) : PairsMadeOf P [(name, both s t)] ↔ s.MadeOf P ∧ t.MadeOf P :=
    List.forall_mem_singleton.trans ((and_iff_right hname).trans (hboth s t))
  unfold pair
  split
  · simp [PairsMadeOf]
  · rw [List.forall_mem_cons, List.forall_mem_singleton]
    simp only [yields_bind, yields_pure, hone, and_yields, yields_and]

section Parts

variable (hP : HoldsOfPrintable P)
include hP

theorem madeOf_indentTo (d : Detail) (depth : Nat) : (d.indentTo depth).MadeOf P := by
  have hindent : d.indent.MadeOf P := Text.madeOf_of_printable hP (by cases d <;> decide)
  intro p hp
  obtain ⟨t, ht, hp⟩ := List.mem_flatten.1 hp
  rw [List.eq_of_mem_replicate ht] at hp
  exact hindent p hp

theorem yields_sourceNote (d : Detail) (w : Widget) :
    Yields (Text.MadeOf P) (sourceNote d w) ↔ ∀ r ∈ noteParts d w, Yields (Text.MadeOf P) r := by
  unfold sourceNote noteParts
  cases d with
  | concise => simp (disch := decide) [Text.madeOf_printable_iff hP]
  | verbose =>
    simp only
    split
    · simp (disch := decide) only [yields_bind, yields_pure, Text.madeOf_append,
        Text.madeOf_printable_iff hP, true_and, and_true, and_yields, yields_and,
        List.forall_mem_cons, List.not_mem_nil, false_imp_iff, implies_true]
    · simp (disch := decide) [Text.madeOf_printable_iff hP]

theorem yields_item (d : Detail) (depth : Nat) (w : Widget) :
    Yields (Text.MadeOf P) (item d depth w) ↔
      ∀ r ∈ [(w.identifier.orElse (.text "?")).display, w.kind.display] ++ noteParts d w,
        Yields (Text.MadeOf P) r := by
  rw [List.forall_mem_append, ← yields_sourceNote hP]
  unfold item
  simp (disch := decide) only [yields_bind, yields_pure, Text.madeOf_append,
    Text.madeOf_printable_iff hP, madeOf_indentTo hP, true_and, and_true, and_yields, yields_and,
    List.forall_mem_cons, List.not_mem_nil, false_imp_iff, implies_true]

theorem yields_styles (items : List (Text × Value)) :
    Yields (PairsMadeOf P)
        (items.mapM fun (k, v) => v.display.map ((("style." : Text) ++ k), ·)) ↔
      ∀ r ∈ items.flatMap fun (k, v) => [.ok k, v.display], Yields (Text.MadeOf P) r := by
  have hstyle : Text.MadeOf P "style." := Text.madeOf_of_printable hP (by decide)
  refine yields_mapM.trans ?_
  simp only [List.mem_flatMap, forall_exists_index, and_imp]
  constructor
  · rintro h r i hi hr
    have hone := h i hi
    rw [yields_map] at hone
    simp only [Text.madeOf_append, hstyle, true_and, and_yields] at hone
    rcases List.mem_cons.1 hr with rfl | hr
    · exact yields_ok.2 hone.1
    · exact List.mem_singleton.1 hr ▸ hone.2
  · rintro h i hi
    rw [yields_map]
    simp only [Text.madeOf_append, hstyle, true_and, and_yields]
    exact ⟨yields_ok.1 (h _ i hi List.mem_cons_self),
      h _ i hi (List.mem_cons_of_mem _ List.mem_cons_self)⟩

theorem yields_properties (w : Widget) :
    Yields (PairsMadeOf P) (properties w) ↔ ∀ r ∈ propertyParts w, Yields (Text.MadeOf P) r := by
  have hword {t : Text} (h : ∀ p ∈ t, 0x20 ≤ p.value ∧ p.value < 0x7F) : t.MadeOf P :=
    Text.madeOf_of_printable hP h
  have hrange (s t : Text) : (s ++ ".." ++ t).MadeOf P ↔ s.MadeOf P ∧ t.MadeOf P := by
    simp (disch := decide) only [Text.madeOf_append, Text.madeOf_printable_iff hP, and_true]
  have hposition (s t : Text) :
      (("(" : Text) ++ s ++ ", " ++ t ++ ")").MadeOf P ↔ s.MadeOf P ∧ t.MadeOf P := by
    simp (disch := decide) only [Text.madeOf_append, Text.madeOf_printable_iff hP, true_and,
      and_true]
  have hsize (s t : Text) : (s ++ " x " ++ t).MadeOf P ↔ s.MadeOf P ∧ t.MadeOf P := by
    simp (disch := decide) only [Text.madeOf_append, Text.madeOf_printable_iff hP, and_true]
  have hstyles := yields_styles hP w.styles.items
  have hsingle {name : Text} (hname : ∀ p ∈ name, 0x20 ≤ p.value ∧ p.value < 0x7F) (v : Value) :=
    yields_single (hword hname) v
  rw [properties_eq, propertyParts]
  simp only [yields_bind, yields_pure, pairsMadeOf_append, and_yields, yields_and,
    List.forall_mem_append]
  rw [hsingle (by decide), hsingle (by decide), hsingle (by decide),
    yields_pair (hword (by decide)) hrange, yields_pair (hword (by decide)) hposition,
    yields_pair (hword (by decide)) hsize, hstyles]

theorem yields_propertyItems (d : Detail) (depth : Nat) (w : Widget) :
    Yields (fun is => ∀ i ∈ is, i.MadeOf P) (propertyItems d depth w) ↔
      ∀ r ∈ propertyParts w, Yields (Text.MadeOf P) r := by
  rw [← yields_properties hP]
  unfold propertyItems
  simp (disch := decide) only [yields_bind, yields_pure, List.forall_mem_map, Text.madeOf_append,
    Text.madeOf_printable_iff hP, madeOf_indentTo hP, true_and, and_true]
  rfl

end Parts

/-! ## Forests -/

/-- The items that speak of a widget at a depth: its own, and those of its properties if they are
shown. -/
def widgetItems (d : Detail) (showProperties : Bool) (l : Nat × Widget) :
    Except Fault (List Text) := do
  let own ← item d l.1 l.2
  if showProperties then (propertyItems d l.1 l.2).map (own :: ·) else return [own]

mutual

theorem treeItems_eq (d : Detail) (showProperties : Bool) : ∀ (depth : Nat) (t : Tree Widget),
    treeItems d showProperties depth t =
      ((t.levels depth).mapM (widgetItems d showProperties)).map List.flatten
  | depth, .node w ts => by
    rw [treeItems, forestItems_eq d showProperties (depth + 1) ts, Tree.levels, List.mapM_cons,
      widgetItems]
    cases item d depth w with
    | error f => rfl
    | ok own =>
      cases showProperties with
      | false => cases (Forest.levels (depth + 1) ts).mapM (widgetItems d false) <;> rfl
      | true =>
        cases propertyItems d depth w with
        | error f => rfl
        | ok shown => cases (Forest.levels (depth + 1) ts).mapM (widgetItems d true) <;> rfl

/-- **The items of a forest** are those of its widgets, one after the other. -/
theorem forestItems_eq (d : Detail) (showProperties : Bool) :
    ∀ (depth : Nat) (ts : List (Tree Widget)), forestItems d showProperties depth ts =
      ((Forest.levels depth ts).mapM (widgetItems d showProperties)).map List.flatten
  | _, [] => rfl
  | depth, t :: ts => by
    rw [forestItems, treeItems_eq d showProperties depth t,
      forestItems_eq d showProperties depth ts, Forest.levels, List.mapM_append]
    cases (t.levels depth).mapM (widgetItems d showProperties) with
    | error f => rfl
    | ok first =>
      cases (Forest.levels depth ts).mapM (widgetItems d showProperties) with
      | error f => rfl
      | ok others => exact congrArg Except.ok List.flatten_append.symm

end

/-- The items of a forest come in groups, one for each widget. What is known of each group is known
of all of them. -/
theorem exists_groups_of_forestItems {γ : Type} {m : List Text → γ} {g : Nat × Widget → γ}
    {d : Detail} {showProperties : Bool} {depth : Nat} {ts : Forest Widget} {items : List Text}
    (h : ∀ n, ∀ w ∈ Forest.toList ts, ∀ group,
      widgetItems d showProperties (n, w) = .ok group → m group = g (n, w))
    (hitems : forestItems d showProperties depth ts = .ok items) :
    ∃ groups : List (List Text),
      groups.flatten = items ∧ groups.map m = (Forest.levels depth ts).map g := by
  rw [forestItems_eq] at hitems
  obtain ⟨groups, hgroups, hflatten⟩ := exists_of_map_eq_ok hitems
  refine ⟨groups, hflatten, map_eq_of_mapM ?_ hgroups⟩
  intro l hl group hgroup
  exact h l.1 l.2 (Forest.mem_toList_of_mem_levels hl) group hgroup

theorem yields_widgetItems (hP : HoldsOfPrintable P) (d : Detail) (showProperties : Bool)
    (l : Nat × Widget) :
    Yields (fun is => ∀ i ∈ is, i.MadeOf P) (widgetItems d showProperties l) ↔
      ∀ r ∈ parts d showProperties l.2, Yields (Text.MadeOf P) r := by
  rw [parts, List.forall_mem_append, ← yields_item hP d l.1 l.2, widgetItems]
  cases showProperties with
  | false =>
    simp only [Bool.false_eq_true, if_false, yields_bind, yields_pure, List.forall_mem_singleton,
      List.not_mem_nil, false_imp_iff, implies_true, and_true]
  | true =>
    simp only [if_true, yields_bind, yields_map, List.forall_mem_cons, and_yields, yields_and,
      yields_propertyItems hP]

/-- **The items of a forest** are made of what is shown of its widgets. -/
theorem yields_forestItems (hP : HoldsOfPrintable P) (d : Detail) (showProperties : Bool)
    (depth : Nat) (ts : Forest Widget) :
    Yields (fun is => ∀ i ∈ is, i.MadeOf P) (forestItems d showProperties depth ts) ↔
      ∀ w ∈ Forest.toList ts, ∀ r ∈ parts d showProperties w, Yields (Text.MadeOf P) r := by
  have hflatten (iss : List (List Text)) :
      (∀ i ∈ iss.flatten, i.MadeOf P) ↔ ∀ is ∈ iss, ∀ i ∈ is, i.MadeOf P := by
    simp only [List.mem_flatten, forall_exists_index, and_imp]
    exact ⟨fun h is his i hi => h i is his hi, fun h i is his hi => h is his i hi⟩
  rw [forestItems_eq, yields_map, yields_congr hflatten, yields_mapM]
  simp only [yields_widgetItems hP]
  exact Forest.forall_mem_levels (Q := fun w => ∀ r ∈ parts d showProperties w,
    Yields (Text.MadeOf P) r) depth ts

/-! ## Outlines of parsed files -/

/-- The heading over the outline of a file, whose name may be empty. -/
def fileHeading (title : Text) : Text :=
  if title.isEmpty then "# Widget Hierarchy" else "# " ++ title ++ " Hierarchy"

theorem heading_text (title : Text) : heading (.text title) = .ok (fileHeading title) := by
  cases title <;> rfl

theorem madeOf_fileHeading (hP : HoldsOfPrintable P) (title : Text) :
    (fileHeading title).MadeOf P ↔ title.MadeOf P := by
  unfold fileHeading
  cases title with
  | nil => simp (disch := decide) [Text.madeOf_printable_iff hP]
  | cons q title =>
    rw [List.isEmpty_cons, if_neg Bool.false_ne_true]
    simp (disch := decide) only [Text.madeOf_append, Text.madeOf_printable_iff hP, true_and,
      and_true]

section Parsed

variable (d : Detail) (showProperties : Bool) {p : ParsedFile} {file : Text}
  (hfile : p.fileName = .text file)
include hfile

/-- The outline of a parsed file is a heading, an empty line and the items of its widgets. -/
theorem ofSubject_eq : ofSubject d showProperties (.parsed p) =
    (forestItems d showProperties 0 p.widgets).map fun is =>
      Text.join "\n" (fileHeading (Path.ofText file).name :: [] :: is) := by
  have hpath : p.path = .ok (Path.ofText file) := by rw [ParsedFile.path, hfile]
  simp only [ofSubject, hpath, Except.bind, lines, heading_text]
  cases forestItems d showProperties 0 p.widgets <;> rfl

/-- **The outline of a parsed file** is made of the name of the file and of what is shown of its
widgets. -/
theorem yields_ofSubject_parsed (hP : HoldsOfAscii P) :
    Yields (Text.MadeOf P) (ofSubject d showProperties (.parsed p)) ↔
      (Path.ofText file).name.MadeOf P ∧
        ∀ w ∈ Forest.toList p.widgets, ∀ r ∈ parts d showProperties w,
          Yields (Text.MadeOf P) r := by
  have hnewline : Text.MadeOf P "\n" := Text.madeOf_of_ascii hP (by decide)
  rw [ofSubject_eq d showProperties hfile, yields_map,
    ← yields_forestItems hP.printable d showProperties 0 p.widgets]
  simp only [Text.madeOf_join hnewline, List.forall_mem_cons, Text.madeOf_nil, true_and,
    madeOf_fileHeading hP.printable, and_yields]

end Parsed

end Outline

/-! ## Widgets of source -/

/-- A widget of source can be shown in certain code points: its text is made of them, and the
numbers of its lines do not have too many digits. -/
structure Widget.Fits (P : CodePoint → Prop) (w : Widget) : Prop where
  text : ∀ t, w.text = .text t → t.MadeOf P
  first : w.source.first.CanShow
  last : w.source.last.CanShow

theorem Value.shownIn_integer_iff {P : CodePoint → Prop} (hP : HoldsOfPrintable P) {n : Int} :
    (integer n).ShownIn P ↔ (integer n).CanShow := by
  refine ⟨fun ⟨t, ht, _⟩ => ⟨t, ht⟩, fun ⟨t, ht⟩ => shownIn_integer hP ?_⟩
  by_contra hlong
  have hfails : (integer n).display = .error (.digitLimit none) := if_neg hlong
  cases ht.symm.trans hfails

/-- The lines of a widget of source are shown exactly if their numbers are not too long. -/
theorem Outline.forall_noteParts_iff {P : CodePoint → Prop} (hP : HoldsOfPrintable P) {w : Widget}
    (hfound : w.IsFound) (d : Detail) :
    (∀ r ∈ noteParts d w, Yields (Text.MadeOf P) r) ↔
      (d = .verbose → w.source.first.CanShow ∧ w.source.last.CanShow) := by
  cases d with
  | concise => simp [noteParts]
  | verbose =>
    obtain ⟨⟨m, hm, hfirst⟩, ⟨n, -, hlast⟩⟩ := hfound
    have hgiven : (Value.integer m).isTrue = true := by
      simp only [Value.isTrue, decide_eq_true_eq]
      omega
    rw [noteParts, hfirst, hlast, if_pos hgiven, List.forall_mem_cons, List.forall_mem_singleton,
      forall_prop_of_true rfl]
    exact and_congr (Value.shownIn_integer_iff hP) (Value.shownIn_integer_iff hP)

/-- The properties of a widget of source are shown exactly if its text is. -/
theorem Outline.forall_propertyParts_iff {P : CodePoint → Prop} (hP : HoldsOfPrintable P)
    {w : Widget} (htext : w.text = .null ∨ ∃ t, w.text = .text t) (hshown : w.ShownIn P) :
    (∀ r ∈ propertyParts w, Yields (Text.MadeOf P) r) ↔
      ∀ t, w.text = .text t → t.MadeOf P := by
  have hone {r : Except Fault Text} (hr : Yields (Text.MadeOf P) r) :
      ∀ u ∈ [r], Yields (Text.MadeOf P) u := List.forall_mem_singleton.2 hr
  have hboth {q r : Except Fault Text} (hq : Yields (Text.MadeOf P) q)
      (hr : Yields (Text.MadeOf P) r) : ∀ u ∈ [q, r], Yields (Text.MadeOf P) u :=
    List.forall_mem_cons.2 ⟨hq, List.forall_mem_singleton.2 hr⟩
  have hown : (∀ r ∈ (if w.text.isNull then [] else [w.text.display]), Yields (Text.MadeOf P) r) ↔
      ∀ t, w.text = .text t → t.MadeOf P := by
    rcases htext with h | ⟨t, h⟩ <;> rw [h]
    · simp [Value.isNull]
    · simp [Value.isNull, Value.display]
  have hsize := hboth ((Size.yields_display_iff hP).2 hshown.width)
    ((Size.yields_display_iff hP).2 hshown.height)
  have hstyles : ∀ r ∈ w.styles.items.flatMap fun (k, v) => [.ok k, v.display],
      Yields (Text.MadeOf P) r := by
    intro r hr
    obtain ⟨i, hi, hr⟩ := List.mem_flatMap.1 hr
    obtain ⟨hkey, hv⟩ := hshown.styles.items hP i hi
    exact hboth (yields_ok.2 hkey) hv r hr
  unfold propertyParts
  simp only [List.forall_mem_append]
  rw [hown, and_iff_left hstyles, and_iff_left (forall_mem_unless hsize),
    and_iff_left (forall_mem_unless (hboth hshown.x hshown.y)),
    and_iff_left (forall_mem_unless (hone hshown.align)),
    and_iff_left (forall_mem_unless (hboth hshown.rangeMin hshown.rangeMax)),
    and_iff_left (forall_mem_unless (hone hshown.value))]

/-- **An outline shows a widget of source** exactly if the numbers of its lines and its text can be
shown where they are asked for. -/
theorem Outline.forall_parts_iff {P : CodePoint → Prop} (hP : HoldsOfPrintable P) {w : Widget}
    (hname : w.name.MadeOf P) (htyped : w.IsTyped) (hshown : w.ShownIn P) (hfound : w.IsFound)
    (d : Detail) (showProperties : Bool) :
    (∀ r ∈ parts d showProperties w, Yields (Text.MadeOf P) r) ↔
      (d = .verbose → w.source.first.CanShow ∧ w.source.last.CanShow) ∧
        (showProperties = true → ∀ t, w.text = .text t → t.MadeOf P) := by
  have hidentifier : Yields (Text.MadeOf P) (w.identifier.orElse (.text "?")).display := by
    rw [htyped.identifier]
    unfold Value.orElse
    split
    · exact yields_ok.2 hname
    · exact yields_ok.2 (Text.madeOf_of_printable hP (by decide))
  have hitem : ∀ r ∈ [(w.identifier.orElse (.text "?")).display, w.kind.display],
      Yields (Text.MadeOf P) r :=
    List.forall_mem_cons.2 ⟨hidentifier, List.forall_mem_singleton.2 hshown.kind⟩
  rw [parts, List.forall_mem_append, List.forall_mem_append, and_iff_right hitem,
    forall_noteParts_iff hP hfound]
  refine and_congr_right' ?_
  cases showProperties with
  | false => simp
  | true => rw [if_pos rfl, forall_propertyParts_iff hP htyped.text hshown, forall_prop_of_true rfl]

/-- A widget is shown whole exactly if it fits. -/
theorem Outline.forall_parts_iff_fits {P : CodePoint → Prop} (hP : HoldsOfPrintable P) {w : Widget}
    (hname : w.name.MadeOf P) (htyped : w.IsTyped) (hshown : w.ShownIn P) (hfound : w.IsFound) :
    (∀ r ∈ parts .verbose true w, Yields (Text.MadeOf P) r) ↔ w.Fits P := by
  rw [forall_parts_iff hP hname htyped hshown hfound, forall_prop_of_true rfl,
    forall_prop_of_true rfl]
  exact ⟨fun ⟨⟨hfirst, hlast⟩, htext⟩ => ⟨htext, hfirst, hlast⟩,
    fun h => ⟨⟨h.first, h.last⟩, h.text⟩⟩

end LvglForest
