import LvglForest.Proofs.Code.Commented
import LvglForest.Proofs.Hierarchy.Content
import LvglForest.Proofs.Hierarchy.Source
import LvglForest.Proofs.Project.Agreement

/-!
# Generated comments

The files of a screen in the verbose and in the concise form have the same parts, but for the
comments of the verbose one (`Project.ofScreens_forms`). As long as each comment is one line that
ends no block comment, they say the same (`Definition.contents_uncommented`), and so they are parsed
to the same widgets and the same declarations (`Project.ofScreens_commented`). A comment shows the
kind of its widget as it is, and a kind can have lines of its own, which are no comment
(`Project.ofScreens_comment_breaks`).
-/

namespace LvglForest

open Extraction

/-! ## Files with and without comments -/

namespace Definition

/-- The parts without the comments in the body. -/
def uncommented (f : Definition) : Definition := { f with body := Statement.uncommented f.body }

/-- The lines that the function starts with, without their indentation. -/
def opening (o : ExportOptions) : List Text :=
  ["lv_obj_clean(" ++ o.parentName ++ ");",
    "lv_obj_set_size(" ++ o.parentName ++ ", LV_PCT(100), LV_PCT(100));", []]

/-- The lines before those of the function. -/
def front (o : ExportOptions) (f : Definition) : List Text :=
  [Rendering.Draft.includeLine o, []] ++
    (f.names.map fun id => ("lv_obj_t * " : Text) ++ id ++ " = NULL;") ++
    [[], o.signature (f.function o) ++ (" \x7b" : Text)]

theorem read_bodyLines (f : Definition) (inBlock : Bool) :
    read inBlock (Text.stackedLines f.bodyLines) = read inBlock (Statement.lines f.body) := by
  by_cases hbody : f.body.map Statement.text = []
  · rw [Statement.lines, bodyLines, hbody]
    rfl
  · have hlines : Statement.lines f.body =
        Text.lines (Text.join "\n" (f.body.map Statement.text) ++ [.char '\n']) := by
      rw [Statement.lines, ← Text.lines_join_stacked, Text.join_concat_nil _ hbody]
      rfl
    rw [hlines, bodyLines]
    split
    -- Statements that are nothing but one gap make an empty text, which has no lines.
    · next hempty =>
      rw [List.isEmpty_iff.1 hempty]
      exact (silent_empty inBlock).read_eq.symm
    · rw [Text.stackedLines_splitOn]

/-- **A file is read as its parts** below one another, whatever the level of detail. -/
theorem read_file (o : ExportOptions) (d : Detail) (f : Definition) :
    read false (Text.lines (f.file { o with detail := d }).code) =
      read false (Text.stackedLines (f.front o ++ opening o) ++
        (Statement.lines f.body ++ Text.stackedLines [("\x7d" : Text)])) := by
  have hopening : Rendering.Draft.openingLines { o with detail := d } =
      (opening o).map fun line => if line.isEmpty then [] else d.indent ++ line := by
    simp [Rendering.Draft.openingLines, opening, Text.ofString]
  have hcode : (f.file { o with detail := d }).code = Text.join "\n"
      ((f.front o ++ (opening o).map (fun line => if line.isEmpty then [] else d.indent ++ line) ++
        f.bodyLines.map (fun line => if line.isEmpty then [] else d.indent ++ line) ++
          [("\x7d" : Text)]) ++ [[]]) := by
    rw [← hopening, List.append_assoc _ [_] [_]]
    rfl
  have htrim : (Text.lines (f.file { o with detail := d }).code).map trim =
      (Text.stackedLines (f.front o ++ opening o) ++
        (Text.stackedLines f.bodyLines ++ Text.stackedLines [("\x7d" : Text)])).map trim := by
    rw [hcode, Text.lines_join_stacked]
    simp only [Text.stackedLines_append, List.map_append, map_trim_stackedLines_indent,
      List.append_assoc]
  rw [read_of_trim htrim]
  exact read_append_congr rfl (read_append_congr (f.read_bodyLines _) rfl)

/-- **Comments that stay comments** change nothing about what a file says. -/
theorem contents_uncommented {o : ExportOptions} {f : Definition} (h : Statement.CommentsStay
      (openAfter false (Text.stackedLines (f.front o ++ opening o))) f.body) (d d' : Detail) :
    (facts .standard (f.file { o with detail := d }).code).map Fact.content =
      (facts .standard (f.uncommented.file { o with detail := d' }).code).map Fact.content := by
  rw [map_content_facts, map_content_facts, read_file, read_file]
  exact congrArg Prod.fst (read_append_congr rfl (read_append_congr (read_uncommented h) rfl))

/-- Before the body no block comment is open, where no slash is in the names. -/
theorem openAfter_front {f : Definition} (hsymbol : .char '/' ∉ f.symbol)
    (hnames : ∀ id ∈ f.names, .char '/' ∉ id) :
    openAfter false (Text.stackedLines (f.front {} ++ opening {})) = false := by
  have hslash : ∀ t ∈ f.front {} ++ opening {}, .char '/' ∉ t := by
    rw [front, List.forall_mem_append, List.forall_mem_append, List.forall_mem_append,
      List.forall_mem_map]
    refine ⟨⟨⟨by decide, fun id hid => ?_⟩, ?_⟩, by decide⟩
    · rw [List.mem_append, List.mem_append, not_or, not_or]
      exact ⟨⟨by decide, hnames id hid⟩, by decide⟩
    · have hfunction : .char '/' ∉ f.function {} := by
        rw [function, List.mem_append, not_or]
        exact ⟨hsymbol, by decide⟩
      have hbrackets : .char '/' ∉ ("(lv_obj_t * " : Text) ∧ .char '/' ∉ ("parent" : Text) ∧
          .char '/' ∉ (")" : Text) ∧ .char '/' ∉ (" \x7b" : Text) := by decide
      rw [List.forall_mem_cons, List.forall_mem_singleton]
      simp only [ExportOptions.signature, List.mem_append, not_or, hfunction, hbrackets]
      decide
  refine openAfter_of_not_mem fun l hl hmem => ?_
  obtain ⟨t, ht, hl⟩ := List.mem_flatMap.1 hl
  have hmem := (Text.isInfix_of_mem_lines hl).subset hmem
  rw [List.mem_append] at hmem
  exact hmem.elim (hslash t ht) (by decide)

end Definition

/-! ## Screens with and without comments -/

/-- The statements that build a screen. -/
def Screen.statements (d : Detail) (s : Screen) : List Statement :=
  (Forest.emissions d "parent" [] 0 s.widgets).statements

namespace Project

/-- A screen that is rendered alone gets the symbol of its name. -/
theorem ofScreens_single {o : ExportOptions} {library : Text}
    (hline : o.includeLine = .text library) (hheader : o.ShowsHeader) {s : Screen} {symbol : Text}
    (hsymbol : Symbol.ofValue s.name = .ok symbol) :
    ofScreens o [s] =
      match (Forest.emissions o.detail o.parentName [] 0 s.widgets).fault? with
      | some e => .error e
      | none =>
        let f : Definition := ⟨symbol,
          Text.distinct (Forest.emissions o.detail o.parentName [] 0 s.widgets).identifiers,
          (Forest.emissions o.detail o.parentName [] 0 s.widgets).statements⟩
        .ok ⟨[(Declaration.ofDefinitions o [f]).file o library, f.file o],
          (Forest.emissions o.detail o.parentName [] 0 s.widgets).issues symbol⟩ := by
  have hdrafts : Rendering.drafts o [] [s] =
      [.ok ⟨symbol, symbol, Forest.emissions o.detail o.parentName [] 0 s.widgets⟩] := by
    rw [Rendering.drafts, hsymbol]
    rfl
  rw [ofScreens, hdrafts, hline, Rendering.settled, Rendering.Draft.fault?_of_showsHeader hheader]
  cases (Forest.emissions o.detail o.parentName [] 0 s.widgets).fault? with
  | some e => rfl
  | none =>
    have hfiles := files_ofDrafts o library
      [⟨symbol, symbol, Forest.emissions o.detail o.parentName [] 0 s.widgets⟩]
    refine congrArg Except.ok ?_
    rw [Project.mk.injEq]
    exact ⟨hfiles, List.flatMap_singleton _ _⟩

theorem ofScreens_of_nameless (o : ExportOptions) {s : Screen} {e : Fault}
    (h : Symbol.ofValue s.name = .error e) : ofScreens o [s] = .error e := by
  rw [ofScreens, Rendering.drafts, h]
  rfl

/-- **Both forms have the same parts**, but for the comments of the verbose one: a screen of typed
widgets is rendered in both forms, or fails alike. -/
theorem ofScreens_forms {s : Screen} (hs : ∀ w ∈ Forest.toList s.widgets, w.IsTyped) :
    (∃ e, ofScreens { detail := .verbose } [s] = .error e ∧
      ofScreens { detail := .concise } [s] = .error e) ∨
    ∃ (header : GeneratedFile) (f : Definition) (issues : List Issue),
      f.body = s.statements .verbose ∧ f.uncommented.body = s.statements .concise ∧
      f.symbol.IsWord ∧ (∀ id ∈ f.names, id.isIdentifierLine = true) ∧
      ofScreens { detail := .verbose } [s] =
        .ok ⟨[header, f.file { detail := .verbose }], issues⟩ ∧
      ofScreens { detail := .concise } [s] =
        .ok ⟨[header, f.uncommented.file { detail := .concise }], issues⟩ := by
  cases hsymbol : Symbol.ofValue s.name with
  | error e => exact .inl ⟨e, ofScreens_of_nameless _ hsymbol, ofScreens_of_nameless _ hsymbol⟩
  | ok symbol =>
    have hconcise := Forest.emissions_concise "parent" [] 0 s.widgets hs
    have hfault := Emissions.fault?_uncommented (Forest.emissions .verbose "parent" [] 0 s.widgets)
    have hidentifiers := @Forest.identifiers_emissions .verbose "parent" s.widgets
      fun w hw => (hs w hw).identifier
    rw [Screen.statements, Screen.statements, ofScreens_single rfl ⟨_, rfl⟩ hsymbol,
      ofScreens_single rfl ⟨_, rfl⟩ hsymbol]
    simp only [hconcise, hfault]
    generalize Forest.emissions .verbose "parent" [] 0 s.widgets = es at hidentifiers ⊢
    cases hes : es.fault? with
    | some e => exact .inl ⟨e, rfl, rfl⟩
    | none =>
      have hlegal : ∀ id ∈ Text.distinct es.identifiers, id.isIdentifierLine = true := by
        intro id hid
        rw [Text.mem_distinct, hidentifiers hes] at hid
        obtain ⟨w, hw, rfl⟩ := List.mem_map.1 hid
        exact (Forest.keep_of_mem_prune Widget.hasLegalName s.widgets hw).1
      refine .inr ⟨_, ⟨symbol, Text.distinct es.identifiers, es.statements⟩, _, rfl,
        (Emissions.statements_uncommented es).symm, Symbol.isWord_of_ofValue hsymbol, hlegal, rfl,
        ?_⟩
      simp only [Emissions.identifiers_uncommented, Emissions.statements_uncommented,
        Emissions.issues, Emissions.skips_uncommented]
      rfl

/-- **Generated comments are inert**, as long as they stay comments. A screen of typed widgets fails
alike in both forms, or its file in the concise form is the one in the verbose form without the
comments and with less indentation. Both files are parsed, and if each comment is a line that ends
no block comment, they are parsed to the same widgets and the same declarations, lines apart. This
is so if each widget that is not skipped has a name and a kind without line breaks, and a kind
without the end of a block comment. -/
theorem ofScreens_commented {s : Screen} (hs : ∀ w ∈ Forest.toList s.widgets, w.IsTyped) :
    (∃ e, ofScreens { detail := .verbose } [s] = .error e ∧
      ofScreens { detail := .concise } [s] = .error e) ∨
    ∃ (header : GeneratedFile) (f : Definition) (issues : List Issue),
      f.body = s.statements .verbose ∧ f.uncommented.body = s.statements .concise ∧
      ofScreens { detail := .verbose } [s] =
        .ok ⟨[header, f.file { detail := .verbose }], issues⟩ ∧
      ofScreens { detail := .concise } [s] =
        .ok ⟨[header, f.uncommented.file { detail := .concise }], issues⟩ ∧
      (∀ names name,
        (∃ p, ParsedFile.parse (.texts names) name (f.file { detail := .verbose }).code = .ok p) ∧
        ∃ p, ParsedFile.parse (.texts names) name
          (f.uncommented.file { detail := .concise }).code = .ok p) ∧
      (Statement.CommentsStay false (s.statements .verbose) → ∀ placeholders name,
        (ParsedFile.parse placeholders name (f.file { detail := .verbose }).code).map
            ParsedFile.withoutLines =
          (ParsedFile.parse placeholders name (f.uncommented.file { detail := .concise }).code).map
            ParsedFile.withoutLines) ∧
      ((∀ w ∈ Forest.toList s.unskipped.widgets, w.HasInertComment) →
        Statement.CommentsStay false (s.statements .verbose)) := by
  rcases ofScreens_forms hs with hfault | ⟨header, f, issues, hbody, hbody', hsymbol, hnames,
    hverbose, hconcise⟩
  · exact .inl hfault
  refine .inr ⟨header, f, issues, hbody, hbody', hverbose, hconcise, fun names name => ?_,
    fun hstay placeholders name => ?_, fun hinert => ?_⟩
  · exact ⟨⟨_, ParsedFile.parse_texts name _ names⟩, ⟨_, ParsedFile.parse_texts name _ names⟩⟩
  · have hopen : openAfter false (Text.stackedLines (f.front {} ++ Definition.opening {})) =
        false :=
      Definition.openAfter_front (hsymbol.not_mem rfl) fun id hid =>
        Text.not_mem_of_isIdentifierLine (hnames id hid) rfl (by decide)
    have hcontents : (facts .standard (f.file { detail := .verbose }).code).map Fact.content =
        (facts .standard (f.uncommented.file { detail := .concise }).code).map Fact.content :=
      Definition.contents_uncommented (o := {}) (by rwa [hopen, hbody]) .verbose .concise
    exact ParsedFile.build_of_contents hcontents placeholders name
  · exact Forest.commentsStay_statements hs hinert .verbose "parent" false

/-- A widget whose kind spells a call and the end of a block comment, and which has a style that
starts a block comment. -/
def remarked : Widget where
  kind := .text "x = lv_btn_create(parent); */"
  identifier := .text "panel"
  styles := { extra := [(Text.ofString "note", .text "/*")] }

theorem isTyped_remarked : remarked.IsTyped where
  identifier := rfl
  kind := ⟨_, rfl⟩
  text := .inl rfl
  known _ _ h := nomatch h
  extra := by
    unfold remarked
    rw [List.forall_mem_singleton]
    exact ⟨_, rfl⟩

/-- The call and the end of a block comment stand in a line comment, and the comment of the second
widget stands in the block comment of the style. -/
theorem ofScreens_commented_remarked :
    let s : Screen := ⟨.text "main", [.node remarked [.node (.named "page") []]]⟩
    (∀ w ∈ Forest.toList s.widgets, w.IsTyped) ∧
      Statement.CommentsStay false (s.statements .verbose) ∧
      ∃ (header : GeneratedFile) (f : Definition) (issues : List Issue),
        ofScreens { detail := .verbose } [s] =
          .ok ⟨[header, f.file { detail := .verbose }], issues⟩ ∧
        ofScreens { detail := .concise } [s] =
          .ok ⟨[header, f.uncommented.file { detail := .concise }], issues⟩ ∧
        ∃ p q, ParsedFile.parse Attachment.defaultPlaceholders (.text "main.cpp")
            (f.file { detail := .verbose }).code = .ok p ∧
          ParsedFile.parse Attachment.defaultPlaceholders (.text "main.cpp")
            (f.uncommented.file { detail := .concise }).code = .ok q ∧
          p.withoutLines = q.withoutLines := by
  intro s
  have htyped : ∀ w ∈ Forest.toList s.widgets, w.IsTyped := by
    have htoList : Forest.toList s.widgets = [remarked, .named "page"] := rfl
    rw [htoList, List.forall_mem_cons, List.forall_mem_singleton]
    exact ⟨isTyped_remarked, Widget.isTyped_named "page"⟩
  have hstay : Statement.CommentsStay false (s.statements .verbose) := by decide +kernel
  refine ⟨htyped, hstay, ?_⟩
  rcases ofScreens_commented htyped with ⟨e, h, -⟩ | ⟨header, f, issues, -, -, hverbose, hconcise,
    hparse, hsame, -⟩
  · cases h
  · obtain ⟨⟨p, hp⟩, ⟨q, hq⟩⟩ := hparse ["parent"] (.text "main.cpp")
    have hview := hsame hstay (.texts ["parent"]) (.text "main.cpp")
    rw [hp, hq] at hview
    exact ⟨header, f, issues, hverbose, hconcise, p, q, hp, hq, Except.ok.inj hview⟩

/-- A widget whose kind has two lines, the second one a call. -/
def twoLined : Widget where
  kind := .text "x\ny = lv_btn_create(parent);"
  identifier := .text "a"

theorem isTyped_twoLined : twoLined.IsTyped where
  identifier := rfl
  kind := ⟨_, rfl⟩
  text := .inl rfl
  known _ _ h := nomatch h
  extra _ h := nomatch h

/-- The second line of the kind is no comment, and creates another widget. -/
theorem ofScreens_comment_breaks :
    let s : Screen := ⟨.text "main", [.node twoLined []]⟩
    (∀ w ∈ Forest.toList s.widgets, w.IsTyped) ∧ ∃ header verbose concise : GeneratedFile,
      ofScreens { detail := .verbose } [s] = .ok ⟨[header, verbose], []⟩ ∧
      ofScreens { detail := .concise } [s] = .ok ⟨[header, concise], []⟩ ∧
      ∃ p q, ParsedFile.parse Attachment.defaultPlaceholders verbose.name verbose.code = .ok p ∧
        ParsedFile.parse Attachment.defaultPlaceholders concise.name concise.code = .ok q ∧
        (Forest.toList p.widgets).map Widget.name = ["y", "a"] ∧
        (Forest.toList q.widgets).map Widget.name = ["a"] := by
  intro s
  have htyped : ∀ w ∈ Forest.toList s.widgets, w.IsTyped := by
    have htoList : Forest.toList s.widgets = [twoLined] := rfl
    rw [htoList, List.forall_mem_singleton]
    exact isTyped_twoLined
  obtain ⟨header, verbose, concise, hverbose, hconcise, ⟨hname, hcode⟩, hname', hcode'⟩ :
      ∃ header verbose concise : GeneratedFile,
        ofScreens { detail := .verbose } [s] = .ok ⟨[header, verbose], []⟩ ∧
        ofScreens { detail := .concise } [s] = .ok ⟨[header, concise], []⟩ ∧
        (verbose.name = .text "main.cpp" ∧ verbose.code = Text.join "\n" ["#include \"ui.h\"", "",
          "lv_obj_t * a = NULL;", "", "void main_create(lv_obj_t * parent) \x7b",
          "    lv_obj_clean(parent);", "    lv_obj_set_size(parent, LV_PCT(100), LV_PCT(100));", "",
          "    // a (x", "    y = lv_btn_create(parent);)", "    a = lv_obj_create(parent);",
          "    lv_obj_set_pos(a, 0, 0);", "", "\x7d", ""]) ∧
        concise.name = .text "main.cpp" ∧ concise.code = Text.join "\n" ["#include \"ui.h\"", "",
          "lv_obj_t * a = NULL;", "", "void main_create(lv_obj_t * parent) \x7b",
          "  lv_obj_clean(parent);", "  lv_obj_set_size(parent, LV_PCT(100), LV_PCT(100));", "",
          "  a = lv_obj_create(parent);", "  lv_obj_set_pos(a, 0, 0);", "", "\x7d", ""] := by
    repeat rw [Text.ofString_ofList]
    exact ⟨_, _, _, rfl, rfl, ⟨rfl, by decide +kernel⟩, rfl, by decide +kernel⟩
  refine ⟨htyped, header, verbose, concise, hverbose, hconcise, _, _,
    ParsedFile.parse_texts _ _ ["parent"], ParsedFile.parse_texts _ _ ["parent"], ?_, ?_⟩
  · rw [hname, hcode]
    repeat rw [Text.ofString_ofList]
    decide +kernel
  · rw [hname', hcode']
    repeat rw [Text.ofString_ofList]
    decide +kernel

end Project

end LvglForest
