import LvglForest.Proofs.Code.Statement
import LvglForest.Proofs.Hierarchy.Source
import LvglForest.Proofs.Project.Agreement

/-!
# Exporting what was read

Every source text can be read and rendered again: its widgets are typed and can be written, so only
their names can keep them out of the new files. A name is a word, since a creation may assign to any
word; generation asks for an identifier. So nothing is reported, and nothing is lost, exactly if all
the words are identifiers (`Project.ofSubject_parsed`).
-/

namespace LvglForest

/-- A word is a legal name exactly if it is an identifier. -/
theorem Widget.hasLegalName_of_isWord {w : Widget} (h : w.name.IsWord) :
    w.hasLegalName = w.name.isIdentifier :=
  Text.isIdentifierLine_of_isWord h

/-- The same names are left after pruning exactly if all names are legal. -/
theorem Forest.names_prune_eq_iff {ts : Forest Widget} :
    (Forest.toList (Forest.prune Widget.hasLegalName ts)).map Widget.name =
        (Forest.toList ts).map Widget.name ↔
      ∀ w ∈ Forest.toList ts, w.hasLegalName = true := by
  refine ⟨fun h w hw => ?_, fun h => by rw [Forest.prune_eq_self _ ts h]⟩
  have hname : w.name ∈ (Forest.toList ts).map Widget.name := List.mem_map_of_mem hw
  rw [← h] at hname
  obtain ⟨w', hw', hsame⟩ := List.mem_map.1 hname
  have hlegal := (Forest.keep_of_mem_prune _ ts hw').1
  rwa [Widget.hasLegalName, hsame] at hlegal

/-- The reports on a draft are none exactly if all names are legal. -/
theorem Rendering.Draft.issues_eq_nil {o : ExportOptions} {s : Screen} {d : Draft}
    (hof : d.IsOf o s) (hs : ∀ w ∈ Forest.toList s.widgets, w.identifier = .text w.name)
    (hfault : d.emissions.fault? = none) :
    d.issues = [] ↔ ∀ w ∈ Forest.toList s.widgets, w.hasLegalName = true := by
  rw [hof.emissions] at hfault
  rw [issues, Emissions.issues, hof.emissions, List.map_eq_nil_iff,
    Forest.skips_emissions o.detail hs hfault, List.map_eq_nil_iff, Forest.filter_isCut_eq_nil]

/-- A parsed file with a text for its name is one screen. -/
theorem Subject.screens_parsed (o : ExportOptions) {p : ParsedFile} {file : Text}
    (h : p.fileName = .text file) :
    ∃ name, (Subject.parsed p).screens o = .ok [⟨.text name, p.widgets⟩] := by
  have hscreen : ∃ name, p.toScreen = .ok ⟨.text name, p.widgets⟩ := by
    rw [ParsedFile.toScreen, ParsedFile.path, h]
    exact ⟨_, rfl⟩
  obtain ⟨name, hname⟩ := hscreen
  refine ⟨name, ?_⟩
  unfold Subject.screens
  simp only [Subject.sortOut, hname]
  rfl

/-! ## Export of a parsed file -/

/-- A parsed file is rendered as one header and one file. -/
structure ParsedFile.IsExported (p : ParsedFile) (o : ExportOptions) (library : Text)
    (project : Project) (f : Definition) : Prop where
  rendered : Project.ofSubject o (.parsed p) = .ok project
  files : ∃ h : Declaration, project.files = [h.file o library, f.file o]
  /-- The file creates the widgets that are left without the skipped ones. -/
  created : f.body.filterMap Statement.created? =
    (Forest.toList (Forest.prune Widget.hasLegalName p.widgets)).map Widget.name
  /-- Nothing is reported exactly if all names are identifiers. -/
  issues : project.issues = [] ↔ ∀ w ∈ Forest.toList p.widgets, w.name.isIdentifier = true
  /-- Only then are all widgets created. -/
  complete : f.body.filterMap Statement.created? = (Forest.toList p.widgets).map Widget.name ↔
    ∀ w ∈ Forest.toList p.widgets, w.name.isIdentifier = true

/-- A file whose widgets have words for names, are typed and can be written is exported. -/
theorem ParsedFile.exists_isExported {o : ExportOptions} {library : Text}
    (hline : o.includeLine = .text library) (hheader : o.ShowsHeader) {p : ParsedFile} {file : Text}
    (hfile : p.fileName = .text file)
    (hp : ∀ w ∈ Forest.toList p.widgets, w.name.IsWord ∧ w.IsTyped ∧ w.IsWritten) :
    ∃ project f, p.IsExported o library project f := by
  have hlegal : (∀ w ∈ Forest.toList p.widgets, w.hasLegalName = true) ↔
      ∀ w ∈ Forest.toList p.widgets, w.name.isIdentifier = true :=
    forall₂_congr fun w hw => by rw [Widget.hasLegalName_of_isWord (hp w hw).1]
  obtain ⟨name, hscreens⟩ := Subject.screens_parsed o hfile
  have htyped : ∀ s ∈ [Screen.mk (.text name) p.widgets], s.IsTyped :=
    List.forall_mem_singleton.2 ⟨⟨name, rfl⟩, fun w hw => (hp w hw).2.1⟩
  have hwritten : ∀ s ∈ [Screen.mk (.text name) p.widgets],
      ∀ w ∈ Forest.toList s.unskipped.widgets, w.IsWritten :=
    List.forall_mem_singleton.2 fun w hw => (hp w (Forest.keep_of_mem_prune _ _ hw).2).2.2
  obtain ⟨project, hproject⟩ :=
    (Project.exists_ofScreens_iff o htyped).2 ⟨⟨library, hline⟩, fun _ => hheader, hwritten⟩
  obtain ⟨library', ds, hline', -, hdrafts, hfault, rfl⟩ := Project.ofScreens_eq_ok.1 hproject
  cases Value.text.inj (hline.symm.trans hline')
  have hof := Rendering.forall₂_isOf (Rendering.drafts_eq_ok o hdrafts).1 hfault
  obtain ⟨d, rfl⟩ : ∃ d, ds = [d] := List.length_eq_one_iff.1 hof.length_eq.symm
  obtain ⟨⟨hd, hdfault⟩, -⟩ := List.forall₂_cons.1 hof
  have hcreated : d.definition.body.filterMap Statement.created? =
      (Forest.toList (Forest.prune Widget.hasLegalName p.widgets)).map Widget.name :=
    (List.forall₂_cons.1 (Declaration.ofDefinitions_agrees o htyped hdrafts hfault).created).1
  refine ⟨_, d.definition, ?_, ⟨_, Project.files_ofDrafts o library [d]⟩, hcreated, ?_, ?_⟩
  · rw [Project.ofSubject, hscreens]
    exact hproject
  · rw [Project.ofDrafts, List.flatMap_cons, List.flatMap_nil, List.append_nil, ← hlegal]
    exact d.issues_eq_nil hd (fun w hw => (hp w hw).2.1.identifier) hdfault
  · rw [hcreated, ← hlegal]
    exact Forest.names_prune_eq_iff

/-! ## Every word is the name of a widget -/

/-- One line that creates a label. -/
def creationLine (id : Text) : Text := (Statement.create id Kind.label.sourceName "parent").text

/-- A creation is the only fact of its line. -/
theorem Extraction.facts_creationLine {id : Text} (hid : id.IsWord) :
    facts .standard (creationLine id) =
      [⟨id, .integer 1,
        .created (.text Kind.label.name) Kind.label.sourceName (.text "parent")⟩] := by
  have hsays : Says (creationLine id)
      [(id, .created (.text Kind.label.name) Kind.label.sourceName (.text "parent"))] :=
    Says.create (u := []) .label hid (.ofList (by decide))
      (fun q hq => absurd hq List.not_mem_nil) (by decide)
  have hne : creationLine id ≠ [] := by simp [creationLine, Statement.text, hid.ne_nil]
  rw [facts_of_line hsays.inLine hne hsays.closed, hsays.facts 1]
  rfl

/-- The widget of a creation has the name that the creation assigns to, which may be any word. -/
theorem ParsedFile.names_creationLine (placeholders file : Value) {id : Text} (hid : id.IsWord) :
    (Forest.toList (ofSource placeholders file (creationLine id)).widgets).map Widget.name =
      [id] := by
  have hforest := (forestOf_ofFacts placeholders file
    (Extraction.facts .standard (creationLine id))).perm
  have hcreated : Fact.createdIn (Extraction.facts .standard (creationLine id)) = [id] := by
    rw [Extraction.facts_creationLine hid]
    rfl
  rw [hcreated, List.map_singleton, List.perm_singleton] at hforest
  obtain ⟨w, hw, hname⟩ := List.map_eq_singleton_iff.1 hforest
  rw [ofSource, hw, List.map_singleton, Widget.name, hname]

/-- **What is read is exported again**, but for names that are no identifiers. Every source text is
read, its widgets have words for names, and it is exported: nothing is reported exactly if all the
words are identifiers, and only then are all widgets created, in document order. Every word is a
name that is read. -/
theorem Project.ofSubject_parsed {o : ExportOptions} {library : Text}
    (hline : o.includeLine = .text library) (hheader : o.ShowsHeader) (names : List Text)
    (file : Text) :
    (∀ source, ∃ p, ParsedFile.parse (.texts names) (.text file) source = .ok p ∧
      (∀ w ∈ Forest.toList p.widgets, w.name.IsWord) ∧
      ∃ project f, p.IsExported o library project f) ∧
    ∀ id : Text, id.IsWord → ∃ source p,
      ParsedFile.parse (.texts names) (.text file) source = .ok p ∧
        (Forest.toList p.widgets).map Widget.name = [id] := by
  refine ⟨fun source => ?_, fun id hid => ?_⟩
  · have hsourced := fun w hw =>
      ParsedFile.isSourced_of_mem_widgets (.texts names) (.text file) source (w := w) hw
    exact ⟨_, ParsedFile.parse_texts _ source names, fun w hw => (hsourced w hw).1,
      ParsedFile.exists_isExported hline hheader rfl hsourced⟩
  · exact ⟨creationLine id, _, ParsedFile.parse_texts _ _ names,
      ParsedFile.names_creationLine _ _ hid⟩

/-- A label whose name is an identifier comes back. -/
theorem Project.ofSubject_parsed_label :
    ∃ p, ParsedFile.parse Attachment.defaultPlaceholders (.text "a.cpp")
        "title = lv_label_create(parent);" = .ok p ∧
      ∃ project f, p.IsExported {} "#include \"lvgl/lvgl.h\"" project f ∧ project.issues = [] := by
  obtain ⟨hsource, -⟩ := ofSubject_parsed (o := {}) rfl ⟨_, rfl⟩ ["parent"] "a.cpp"
  obtain ⟨p, hp, -, project, f, hexported⟩ := hsource (creationLine "title")
  have hparse := hp
  rw [ParsedFile.parse_texts, Except.ok.injEq] at hp
  have htitle : Text.IsWord "title" := .ofList (by decide)
  have hnames := ParsedFile.names_creationLine Attachment.defaultPlaceholders (.text "a.cpp") htitle
  obtain ⟨w, hw, hname⟩ := List.map_eq_singleton_iff.1 hnames
  refine ⟨p, hparse, project, f, hexported, hexported.issues.2 ?_⟩
  rw [← hp]
  show ∀ w ∈ Forest.toList (ParsedFile.ofSource Attachment.defaultPlaceholders (.text "a.cpp")
    (creationLine "title")).widgets, _
  rw [hw, List.forall_mem_singleton, hname]
  decide

/-- A label whose name starts with a letter outside ASCII does not. -/
theorem Project.ofSubject_parsed_loses :
    ∃ p, ParsedFile.parse Attachment.defaultPlaceholders (.text "a.cpp")
        "é = lv_label_create(parent);" = .ok p ∧
      (Forest.toList p.widgets).map Widget.name = ["é"] ∧
      ∃ project f, p.IsExported {} "#include \"lvgl/lvgl.h\"" project f ∧
        project.issues ≠ [] ∧ f.body.filterMap Statement.created? = [] := by
  have hline : ("é = lv_label_create(parent);" : Text) = creationLine "é" := by
    repeat rw [Text.ofString_ofList]
    decide +kernel
  rw [hline]
  have hword : Text.IsWord "é" := .ofList (by decide)
  have hnames := ParsedFile.names_creationLine Attachment.defaultPlaceholders (.text "a.cpp") hword
  have hparse := ParsedFile.parse_texts (.text "a.cpp") (creationLine "é") ["parent"]
  have hsourced := fun w hw => ParsedFile.isSourced_of_mem_widgets Attachment.defaultPlaceholders
    (.text "a.cpp") (creationLine "é") (w := w) hw
  obtain ⟨w, hw, hname⟩ := List.map_eq_singleton_iff.1 hnames
  obtain ⟨project, f, hexported⟩ := ParsedFile.exists_isExported (o := {}) rfl ⟨_, rfl⟩ rfl hsourced
  refine ⟨_, hparse, hnames, project, f, hexported, fun hissues => ?_, ?_⟩
  · have hidentifier := hexported.issues.1 hissues w (hw ▸ List.mem_singleton_self w)
    rw [hname] at hidentifier
    revert hidentifier
    decide
  · rw [hexported.created, List.map_eq_nil_iff, List.eq_nil_iff_forall_not_mem]
    intro w' hw'
    obtain ⟨hlegal, hmem⟩ := Forest.keep_of_mem_prune _ _ hw'
    rw [hw, List.mem_singleton] at hmem
    rw [hmem, Widget.hasLegalName, hname] at hlegal
    revert hlegal
    decide

end LvglForest
