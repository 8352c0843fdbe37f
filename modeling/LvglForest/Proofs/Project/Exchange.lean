import LvglForest.Project.Rendering
import LvglForest.Proofs.Forest.Reordering
import LvglForest.Proofs.Project.Reexport
import LvglForest.Proofs.Widget.Exchange

/-!
# Exchange

Whatever a document describes, and whatever is parsed, is kept by documents
(`Tree.isKept_of_ofValue`, `ParsedFile.isKept_of_mem_widgets`), so it comes back from the document
that is written for it, and only the places where its widgets were found are lost. Nothing is
generated from these places (`Tree.emissions_withoutSource`), so what is exchanged is generated and
rendered as before (`Tree.exists_isExchanged`).
-/

namespace LvglForest

/-! ## Generation -/

mutual

/-- Nothing is generated from the places where widgets were found. -/
theorem Tree.emissions_withoutSource (d : Detail) : ∀ (parent : Text) (path : List Nat)
    (t : Tree Widget), Tree.emissions d parent path (Tree.relabel Widget.withoutSource t) =
      Tree.emissions d parent path t
  | parent, path, .node w ts => by
    have hnaming : w.withoutSource.naming = w.naming := rfl
    rw [Tree.relabel, Tree.emissions, Tree.emissions, hnaming]
    cases w.naming with
    | skip reason => rfl
    | fault f => rfl
    | legal identifier =>
      exact congrArg (w.emissions d identifier parent ++ ·)
        (Forest.emissions_withoutSource d identifier path 0 ts)

theorem Forest.emissions_withoutSource (d : Detail) : ∀ (parent : Text) (path : List Nat)
    (index : Nat) (ts : List (Tree Widget)),
    Forest.emissions d parent path index (Forest.relabel Widget.withoutSource ts) =
      Forest.emissions d parent path index ts
  | _, _, _, [] => rfl
  | parent, path, index, t :: ts => by
    rw [Forest.relabel, Forest.emissions, Forest.emissions,
      Tree.emissions_withoutSource d parent (path ++ [index]) t,
      Forest.emissions_withoutSource d parent path (index + 1) ts]

end

theorem Project.ofSubject_withoutSource (o : ExportOptions) (t : Tree Widget) :
    ofSubject o (.widget (Tree.relabel Widget.withoutSource t)) = ofSubject o (.widget t) := by
  have hscreens (u : Tree Widget) :
      (Subject.widget u).screens o = .ok [⟨o.defaultScreenName, [u]⟩] := rfl
  have hdrafts : Rendering.drafts o [] [⟨o.defaultScreenName, [Tree.relabel .withoutSource t]⟩] =
      Rendering.drafts o [] [⟨o.defaultScreenName, [t]⟩] := by
    simp only [Rendering.drafts, Forest.emissions, Tree.emissions_withoutSource]
  unfold ofSubject
  simp only [hscreens]
  rw [ofScreens, ofScreens, hdrafts]

/-! ## Parsed files -/

/-- What source can say of a widget is kept, but for an expression that looks like a percentage. -/
theorem Entry.IsSourced.isKept {e : Entry} (he : e.IsSourced) (file : Value) (id : Text)
    (parent : Value) (hwidth : ¬ e.width.EndsInPercent) (hheight : ¬ e.height.EndsInPercent) :
    (e.toWidget file id parent).IsKept where
  kind := by
    obtain ⟨t, ht, hword⟩ := he.kind
    show e.kind.isTrue = true
    rw [ht]
    simpa [Value.isTrue] using hword.ne_nil
  identifier := by
    cases id with
    | nil => exact .inr rfl
    | cons p t => exact .inl rfl
  align := by
    show ∃ u, e.align.checkHashable = .ok u
    rcases he.align with h | ⟨t, h⟩ <;> rw [h] <;> exact ⟨(), rfl⟩
  styles := he.styles
  x := he.x.imp fun _ h => h.1
  y := he.y.imp fun _ h => h.1
  width := he.width.elim fun _ h => Size.isKept_ofSource h hwidth
  height := he.height.elim fun _ h => Size.isKept_ofSource h hheight

/-- A widget of a parsed file is kept unless its sizes look like percentages. -/
theorem ParsedFile.isKept_of_mem_widgets {placeholders file : Value} {source : Text}
    {p : ParsedFile} (hp : parse placeholders file source = .ok p) {w : Widget}
    (hw : w ∈ Forest.toList p.widgets) (hwidth : ¬ w.width.EndsInPercent)
    (hheight : ¬ w.height.EndsInPercent) : w.IsKept := by
  obtain ⟨rfl, -⟩ := build_eq_ok.1 hp
  obtain ⟨⟨id, e⟩, he, parent, rfl⟩ := exists_entry_of_mem_widgets hw
  exact (isSourced_of_mem_entries source (id, e) he).isKept file id parent hwidth hheight

/-! ## Exchanged trees -/

/-- A tree that a document describes, where no alignment is a list or a record. -/
def Tree.IsDescribed (t : Tree Widget) : Prop :=
  (∃ v, Tree.ofValue v = .ok t) ∧ ∀ w ∈ t.toList, ∃ u, w.align.checkHashable = .ok u

/-- A tree of a parsed file, where no size is an expression that ends in a percent sign. -/
def Tree.IsParsed (t : Tree Widget) : Prop :=
  (∃ placeholders file source p, ParsedFile.parse placeholders file source = .ok p ∧
    t ∈ Forest.subtrees p.widgets) ∧
  ∀ w ∈ t.toList, ¬ w.width.EndsInPercent ∧ ¬ w.height.EndsInPercent

/-- A document that is written for a tree and keeps it. -/
structure Tree.IsExchanged (t : Tree Widget) (v : Value) : Prop where
  written : Tree.toValue t = .ok v
  /-- It is read as the tree, where only the places of the widgets are lost. -/
  read : Tree.ofValue v = .ok (Tree.relabel Widget.withoutSource t)
  /-- The tree that is read is written as before, but for the lines. -/
  rewritten : Tree.toValue (Tree.relabel Widget.withoutSource t) = .ok v.withoutLines
  /-- It is generated as before. -/
  generated : ∀ d parent path, Tree.emissions d parent path (Tree.relabel Widget.withoutSource t) =
    Tree.emissions d parent path t
  /-- It is rendered as before. -/
  rendered : ∀ o, Project.ofSubject o (.widget (Tree.relabel Widget.withoutSource t)) =
    Project.ofSubject o (.widget t)

/-- **Documents keep widgets**, and everything about them but the places where they were found:
both those that documents describe and those that are parsed. -/
theorem Tree.exists_isExchanged {t : Tree Widget} (h : t.IsDescribed ∨ t.IsParsed) :
    ∃ v, t.IsExchanged v := by
  have hkept : ∀ w ∈ t.toList, w.IsKept := by
    rcases h with ⟨⟨v, hv⟩, halign⟩ | ⟨⟨placeholders, file, source, p, hp, ht⟩, hsizes⟩
    · exact fun w hw => Tree.isKept_of_ofValue v t hv w hw (halign w hw)
    · exact fun w hw => ParsedFile.isKept_of_mem_widgets hp
        ((Forest.toList_sublist p.widgets ht).subset hw) (hsizes w hw).1 (hsizes w hw).2
  obtain ⟨v, hwritten, hread⟩ := Tree.ofValue_toValue t hkept
  exact ⟨v, hwritten, hread, Tree.toValue_withoutSource t v hwritten,
    fun d parent path => Tree.emissions_withoutSource d parent path t,
    fun o => Project.ofSubject_withoutSource o t⟩

/-- A label that is placed by an anchor, with a percentage, an expression that only looks like one,
a known style behind another one, and a child. -/
def Value.badge : Value :=
  .record [("kind", .text "label"), ("anchor", .list [.text "center", .text "top"]),
    ("styles", .record [("pad_all", .integer 4), ("radius", .integer 8)]),
    ("size", .record [("width", .text " 50% "), ("height", .text "fit%")]),
    ("children", .list [.record [("identifier", .text "icon")]])]

/-- The widgets that it describes. -/
def Tree.badge : Tree Widget :=
  .node
    { kind := .text "label"
      identifier := .text []
      align := .text "LV_ALIGN_TOP_MID"
      styles := (Styles.set "radius" (.text "8") (.set "pad_all" (.text "4") {}))
      width := .percent (.integer 50)
      height := .token "fit%" }
    [.node { kind := .text "container", identifier := .text "icon" } []]

/-- The badge comes back, and so does a label that is parsed. -/
theorem Tree.exists_isExchanged_badge :
    Tree.ofValue .badge = .ok .badge ∧ (∃ v, Tree.badge.IsExchanged v) ∧
      ∃ p, ParsedFile.parse Attachment.defaultPlaceholders (.text "a.cpp")
          "title = lv_label_create(parent);" = .ok p ∧
        p.widgets.length = 1 ∧ ∀ t ∈ p.widgets, ∃ v, t.IsExchanged v := by
  have hline : ("title = lv_label_create(parent);" : Text) = creationLine "title" := by
    repeat rw [Text.ofString_ofList]
    decide +kernel
  rw [hline]
  have hbadge : Tree.ofValue .badge = .ok .badge := rfl
  have hparse := ParsedFile.parse_texts (.text "a.cpp") (creationLine "title") ["parent"]
  have htitle : Text.IsWord "title" := .ofList (by decide)
  have hwidgets : (ParsedFile.ofSource Attachment.defaultPlaceholders (.text "a.cpp")
      (creationLine "title")).widgets =
        [.node { kind := .text "label", identifier := .text "title",
                 source := ⟨.text "a.cpp", .integer 1, .integer 1⟩ } []] := by
    rw [ParsedFile.ofSource, Extraction.facts_creationLine htitle]
    rfl
  refine ⟨hbadge, exists_isExchanged (.inl ⟨⟨_, hbadge⟩, ?_⟩), _, hparse, ?_, fun t ht =>
    exists_isExchanged (.inr ⟨⟨_, _, _, _, hparse,
      Forest.mem_subtrees_of_mem ht (Tree.mem_subtrees_self t)⟩, ?_⟩)⟩
  · simp [Tree.badge, Tree.toList, Forest.toList, Value.checkHashable]
  · exact congrArg List.length hwidgets
  · have hauto : ¬ Size.auto.EndsInPercent := by
      rintro ⟨t, ⟨⟩, hlast⟩
      exact absurd hlast (by decide)
    rw [Attachment.defaultPlaceholders] at hwidgets
    rw [hwidgets, List.mem_singleton] at ht
    rw [ht, Tree.toList, Forest.toList, List.forall_mem_singleton]
    exact ⟨hauto, hauto⟩

end LvglForest
