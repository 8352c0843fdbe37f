import LvglForest.Page.Basic
import LvglForest.Proofs.Disk.Encoding
import LvglForest.Proofs.Outline
import LvglForest.Proofs.Project.Reexport
import LvglForest.Proofs.Project.Spelling

/-!
# How pages are spelled

A page is written with the texts of its elements, and escaping adds nothing but ASCII
(`Markup.madeOf_write`). The words of the page itself have no surrogates, so a page has some exactly
if what is shown on it has (`Page.madeOf_write_filled`). On the page of a source without surrogates
the generated code and the reports have none (`Page.yields_generated`), so what counts is whether
the widgets fit the outline (`Page.yields_ofSource_iff`).
-/

namespace LvglForest

/-! ## Markup -/

namespace Markup

mutual

/-- All texts in a part of a page are made of certain code points. -/
def MadeOf (P : CodePoint → Prop) : Markup → Prop
  | .text t | .sheet t => t.MadeOf P
  | .void tag attributes => tag.MadeOf P ∧ ∀ a ∈ attributes, a.1.MadeOf P ∧ a.2.MadeOf P
  | .element tag attributes children =>
    tag.MadeOf P ∧ (∀ a ∈ attributes, a.1.MadeOf P ∧ a.2.MadeOf P) ∧ AllMadeOf P children

/-- All texts in parts of a page are made of certain code points. -/
def AllMadeOf (P : CodePoint → Prop) : List Markup → Prop
  | [] => True
  | m :: ms => MadeOf P m ∧ AllMadeOf P ms

end

variable {P : CodePoint → Prop}

theorem allMadeOf_iff {ms : List Markup} : AllMadeOf P ms ↔ ∀ m ∈ ms, m.MadeOf P := by
  induction ms with
  | nil => simp [AllMadeOf]
  | cons m ms ih => rw [AllMadeOf, ih, List.forall_mem_cons]

theorem allMadeOf_append {ms ns : List Markup} :
    AllMadeOf P (ms ++ ns) ↔ AllMadeOf P ms ∧ AllMadeOf P ns := by
  simp only [allMadeOf_iff, List.forall_mem_append]

theorem madeOf_escape (hP : HoldsOfAscii P) (t : Text) : (escape t).MadeOf P ↔ t.MadeOf P := by
  have hpoint (p : CodePoint) : (escapePoint p).MadeOf P ↔ P p := by
    unfold escapePoint
    split
    case h_6 => simp
    all_goals exact iff_of_true (Text.madeOf_of_ascii hP (by decide)) (hP _ (by decide))
  rw [escape, Text.madeOf_flatMap]
  exact forall₂_congr fun p _ => hpoint p

theorem madeOf_attributesText (hP : HoldsOfAscii P) (attributes : List (Text × Text)) :
    (attributesText attributes).MadeOf P ↔ ∀ a ∈ attributes, a.1.MadeOf P ∧ a.2.MadeOf P := by
  rw [attributesText, Text.madeOf_flatMap]
  simp (disch := decide) only [Text.madeOf_append, Text.madeOf_ascii_iff hP, madeOf_escape hP, true_and, and_true]

mutual

/-- **A part of a page** is written with its texts. -/
theorem madeOf_write (hP : HoldsOfAscii P) : ∀ m : Markup, m.write.MadeOf P ↔ m.MadeOf P
  | .text t => by rw [write, MadeOf, madeOf_escape hP]
  | .void tag attributes => by
    rw [write, MadeOf, ← madeOf_attributesText hP]
    simp (disch := decide) only [Text.madeOf_append, Text.madeOf_ascii_iff hP, true_and, and_true]
  | .element tag attributes children => by
    rw [write, MadeOf, ← madeOf_attributesText hP, ← madeOf_writeAll hP children]
    simp (disch := decide) only [Text.madeOf_append, Text.madeOf_ascii_iff hP, true_and, and_true]
    tauto
  | .sheet t => by
    rw [write, MadeOf]
    simp (disch := decide) only [Text.madeOf_append, Text.madeOf_ascii_iff hP, true_and, and_true]

theorem madeOf_writeAll (hP : HoldsOfAscii P) :
    ∀ ms : List Markup, (writeAll ms).MadeOf P ↔ AllMadeOf P ms
  | [] => iff_of_true Text.madeOf_nil trivial
  | m :: ms => by
    rw [writeAll, AllMadeOf, Text.madeOf_append, madeOf_write hP m, madeOf_writeAll hP ms]

end

end Markup

/-! ## Pages -/

namespace Page

open Encoding

/-- The texts that an outcome puts on a page. -/
def shownTexts : PageOutcome → List Text
  | .refused error => [error]
  | .result outline code issues => if outline.isEmpty then [] else outline :: code :: issues

theorem madeOf_newline (level : Nat) : (newline level).MadeOf utf8.Has := by
  refine Text.madeOf_cons.2 ⟨rfl, fun p hp => ?_⟩
  rw [List.eq_of_mem_replicate hp]
  rfl

theorem madeOf_issuesPart (issues : List Text) :
    Markup.AllMadeOf utf8.Has (issuesPart issues) ↔ ∀ issue ∈ issues, issue.MadeOf utf8.Has := by
  unfold issuesPart
  split
  · next hempty => simp [List.isEmpty_iff.1 hempty, Markup.AllMadeOf]
  · simp only [Markup.AllMadeOf, Markup.MadeOf, Markup.allMadeOf_iff, List.forall_mem_append,
      List.forall_mem_map, List.forall_mem_singleton, madeOf_newline, madeOf_ofString,
      List.not_mem_nil, false_imp_iff, implies_true, true_and, and_true]

theorem madeOf_outcomeParts (o : PageOutcome) :
    Markup.AllMadeOf utf8.Has (outcomeParts o).1 ∧ Markup.AllMadeOf utf8.Has (outcomeParts o).2 ↔
      ∀ t ∈ shownTexts o, t.MadeOf utf8.Has := by
  cases o with
  | refused error =>
    rw [outcomeParts, shownTexts, List.forall_mem_singleton, errorPart]
    split
    · next hempty => simp [List.isEmpty_iff.1 hempty, Markup.AllMadeOf]
    · simp only [Markup.AllMadeOf, Markup.MadeOf, madeOf_newline, madeOf_ofString,
        List.forall_mem_singleton, true_and, and_true]
  | result outline code issues =>
    rw [outcomeParts, shownTexts, resultPart]
    split
    · simp [Markup.AllMadeOf]
    · simp only [Markup.AllMadeOf, Markup.MadeOf, Markup.allMadeOf_append, madeOf_newline,
        madeOf_ofString, madeOf_issuesPart, List.forall_mem_cons, List.not_mem_nil, false_imp_iff,
        implies_true, true_and, and_true]

theorem madeOf_write_filled (fileName source : Text) (outcome : PageOutcome) :
    (filled fileName source outcome).write.MadeOf utf8.Has ↔
      fileName.MadeOf utf8.Has ∧ source.MadeOf utf8.Has ∧
        ∀ t ∈ shownTexts outcome, t.MadeOf utf8.Has := by
  have hname : (if fileName.isEmpty then defaultFileName else fileName).MadeOf utf8.Has ↔
      fileName.MadeOf utf8.Has := by
    cases fileName with
    | nil => exact iff_of_true (madeOf_ofString _) Text.madeOf_nil
    | cons p fileName => rfl
  have hsheet : sheet.MadeOf utf8.Has := by
    simp only [sheet, Text.madeOf_append, madeOf_ofString, and_self]
  rw [write, Text.madeOf_append, Markup.madeOf_write (holdsOfAscii_has utf8),
    ← madeOf_outcomeParts]
  simp only [layout, layout.document, body, head, form, Markup.AllMadeOf, Markup.MadeOf,
    Markup.allMadeOf_append, madeOf_newline, madeOf_ofString, hname, hsheet, List.forall_mem_cons,
    List.not_mem_nil, false_imp_iff, implies_true, true_and, and_true, and_assoc]

end Page

/-! ## Generated code -/

open Encoding

/-- A text between quotes has no surrogates if the text has none. -/
theorem Text.madeOf_quoted {t : Text} (h : t.MadeOf utf8.Has) : t.quoted.MadeOf utf8.Has := by
  have hhex (width n : Nat) : (hexText width n).MadeOf utf8.Has := by
    intro p hp
    obtain ⟨c, -, rfl⟩ := List.mem_map.1 hp
    rfl
  have hpoint (quote : Char) (p : CodePoint) (hp : utf8.Has p) :
      (p.quotedWithin quote).MadeOf utf8.Has := by
    unfold CodePoint.quotedWithin
    split
    · exact madeOf_cons.2 ⟨rfl, madeOf_cons.2 ⟨hp, madeOf_nil⟩⟩
    split
    · exact madeOf_ofString _
    split
    · exact madeOf_ofString _
    split
    · exact madeOf_ofString _
    split
    · exact madeOf_cons.2 ⟨hp, madeOf_nil⟩
    split
    · exact madeOf_append.2 ⟨madeOf_ofString _, hhex 2 _⟩
    split
    · exact madeOf_append.2 ⟨madeOf_ofString _, hhex 4 _⟩
    · exact madeOf_append.2 ⟨madeOf_ofString _, hhex 8 _⟩
  rw [quoted]
  simp only [List.cons_append, madeOf_cons, madeOf_append, madeOf_flatMap, madeOf_nil, and_true]
  exact ⟨rfl, fun p hp => hpoint _ p (h p hp), rfl⟩

theorem SkipReason.madeOf_message {w : Widget} (hname : w.name.MadeOf utf8.Has) :
    w.skipReason.message.MadeOf utf8.Has := by
  unfold Widget.skipReason
  split
  · exact madeOf_ofString _
  · simp only [message, Text.madeOf_append, madeOf_ofString, Text.madeOf_quoted hname, and_self]

theorem madeOf_pathText {root : Text} (hroot : root.MadeOf utf8.Has) (path : List Nat) :
    (pathText root path).MadeOf utf8.Has := by
  rw [pathText, Text.madeOf_append, Text.madeOf_flatMap]
  exact ⟨hroot, fun n _ =>
    Text.madeOf_cons.2 ⟨rfl, Text.madeOf_decimal (holdsOfAscii_has utf8).printable n⟩⟩

namespace Page

/-- The reports on the widgets of a screen have no surrogates if the names have none. -/
theorem madeOf_issueText {o : ExportOptions} {s : Screen} {d : Rendering.Draft} (hd : d.IsOf o s)
    (hfault : d.emissions.fault? = none)
    (hs : ∀ w ∈ Forest.toList s.widgets, w.identifier = .text w.name ∧ w.name.MadeOf utf8.Has) :
    ∀ i ∈ d.issues, (issueText i).MadeOf utf8.Has := by
  rw [hd.emissions] at hfault
  rw [Rendering.Draft.issues, Emissions.issues, hd.emissions,
    Forest.skips_emissions o.detail (fun w hw => (hs w hw).1) hfault, List.map_map,
    List.forall_mem_map]
  intro n hn
  have hlabel : n.label ∈ Forest.toList s.widgets := by
    rw [← Forest.labels_nodesFrom [] [] 0 s.widgets]
    exact List.mem_map_of_mem (List.mem_of_mem_filter hn)
  simp only [issueText, Text.madeOf_append]
  exact ⟨⟨madeOf_pathText (madeOf_of_isWord hd.symbol) n.path, madeOf_ofString _⟩,
    SkipReason.madeOf_message (hs n.label hlabel).2⟩

theorem madeOf_filesText {files : List GeneratedFile}
    (h : ∀ f ∈ files, (∃ name, f.name = .text name ∧ name.MadeOf utf8.Has) ∧
      f.code.MadeOf utf8.Has) : (filesText files).MadeOf utf8.Has := by
  rw [filesText, Text.madeOf_join (madeOf_ofString _), List.forall_mem_map]
  intro f hf
  obtain ⟨⟨name, hname, hmade⟩, hcode⟩ := h f hf
  have hdisplay : f.name.display.toOption.getD [] = name := by
    rw [hname]
    rfl
  simp only [hdisplay, Text.madeOf_append, madeOf_ofString, hmade, hcode, and_self]

/-- **The code that is generated from a parsed file** and the reports have no surrogates if what is
known of the widgets shows without any. -/
theorem yields_generated (d : Detail) {p : ParsedFile} {file : Text}
    (hfile : p.fileName = .text file)
    (hsourced : ∀ w ∈ Forest.toList p.widgets, w.name.IsWord ∧ w.IsTyped ∧ w.IsWritten)
    (hshown : ∀ w ∈ Forest.toList p.widgets, w.ShownIn utf8.Has)
    (htext : ∀ w ∈ Forest.toList p.widgets, ∀ t, w.text = .text t → t.MadeOf utf8.Has) :
    Yields (fun g => g.1.MadeOf utf8.Has ∧ ∀ i ∈ g.2, i.MadeOf utf8.Has) (generated d p) := by
  have hP := holdsOfAscii_has utf8
  obtain ⟨project, f, hexported⟩ :=
    ParsedFile.exists_isExported (o := { detail := d }) rfl ⟨_, rfl⟩ hfile hsourced
  obtain ⟨name, hscreens⟩ := Subject.screens_parsed { detail := d } hfile
  have hproject := hexported.rendered
  rw [Project.ofSubject, hscreens] at hproject
  have htyped : ∀ s ∈ [Screen.mk (.text name) p.widgets], s.IsTyped :=
    List.forall_mem_singleton.2 ⟨⟨name, rfl⟩, fun w hw => (hsourced w hw).2.1⟩
  have hspells : (Screen.mk (.text name) p.widgets).Spells utf8.Has { detail := d } :=
    { frame := List.forall_mem_cons.2 ⟨madeOf_ofString "ui.h", List.forall_mem_cons.2
        ⟨madeOf_ofString _, List.forall_mem_singleton.2 (madeOf_ofString _)⟩⟩
      symbol := fun _ _ => madeOf_of_isWord (Symbol.isWord_ofName _)
      widgets := fun w hw => by
        have hmem := (Forest.keep_of_mem_prune _ _ hw).2
        exact (hshown w hmem).spells hP.printable (madeOf_of_isWord (hsourced w hmem).1)
          (htext w hmem) d }
  have hcodes := (Project.madeOf_files_iff hP htyped hproject).2
    ⟨fun _ h => Value.text.inj h ▸ madeOf_ofString _, List.forall_mem_singleton.2 hspells⟩
  obtain ⟨library, ds, -, -, hdrafts, hfault, rfl⟩ := Project.ofScreens_eq_ok.1 hproject
  have hof := Rendering.forall₂_isOf (Rendering.drafts_eq_ok _ hdrafts).1 hfault
  obtain ⟨r, rfl⟩ : ∃ r, ds = [r] := List.length_eq_one_iff.1 hof.length_eq.symm
  obtain ⟨⟨hr, hrfault⟩, -⟩ := List.forall₂_cons.1 hof
  have hfile' : (r.symbol ++ ".cpp").MadeOf utf8.Has :=
    Text.madeOf_append.2 ⟨madeOf_of_isWord hr.symbol, madeOf_ofString _⟩
  rw [generated, hexported.rendered, yields_map, yields_ok]
  refine ⟨madeOf_filesText fun f hf => ⟨?_, hcodes f hf⟩, ?_⟩
  · rcases List.mem_cons.1 hf with rfl | hf
    · exact ⟨_, rfl, madeOf_ofString _⟩
    · cases List.mem_singleton.1 hf
      exact ⟨_, rfl, hfile'⟩
  · rw [List.forall_mem_map, Project.ofDrafts, List.flatMap_cons, List.flatMap_nil, List.append_nil]
    exact madeOf_issueText hr hrfault fun w hw =>
      ⟨(hsourced w hw).2.1.identifier, madeOf_of_isWord (hsourced w hw).1⟩

/-! ## Pages of sources -/

/-- A blank source has no widgets. -/
theorem widgets_of_isBlank {source : Text} (h : source.isBlank = true) (placeholders file : Value) :
    (ParsedFile.ofSource placeholders file source).widgets = [] := by
  rw [ParsedFile.ofSource, Extraction.facts_of_isBlank _ h]
  rfl

/-- The outline and the code of widgets have no surrogates together if the outline has none. -/
theorem yields_result_iff {d : Detail} {p : ParsedFile}
    (hgenerated : Yields (Text.MadeOf utf8.Has) (outline p) →
      Yields (fun g => g.1.MadeOf utf8.Has ∧ ∀ i ∈ g.2, i.MadeOf utf8.Has) (generated d p)) :
    Yields (fun o => ∀ t ∈ shownTexts o, t.MadeOf utf8.Has) (result d p) ↔
      Yields (Text.MadeOf utf8.Has) (outline p) := by
  constructor
  · rintro ⟨o, ho, hshown⟩
    obtain ⟨tree, htree, ho⟩ := exists_of_bind_eq_ok ho
    obtain ⟨⟨code, issues⟩, -, ho⟩ := exists_of_bind_eq_ok ho
    cases ho
    refine ⟨tree, htree, ?_⟩
    cases tree with
    | nil => exact Text.madeOf_nil
    | cons q tree => exact hshown _ List.mem_cons_self
  · intro houtline
    obtain ⟨⟨code, issues⟩, hg, hcode, hissues⟩ := hgenerated houtline
    obtain ⟨tree, htree, hmade⟩ := houtline
    refine ⟨.result tree code issues, by rw [result, htree, hg]; rfl, ?_⟩
    unfold shownTexts
    simp only
    split
    · exact fun t ht => absurd ht List.not_mem_nil
    · exact List.forall_mem_cons.2 ⟨hmade, List.forall_mem_cons.2 ⟨hcode, hissues⟩⟩

/-- **The page of a source** without surrogates is there and has none exactly if all widgets of the
source fit. -/
theorem yields_ofSource_iff (d : Detail) {fileName source : Text} (hname : fileName.MadeOf utf8.Has)
    (hsource : source.MadeOf utf8.Has) :
    Yields (fun p => p.write.MadeOf utf8.Has) (ofSource d fileName source) ↔
      ∀ w ∈ Forest.toList (ParsedFile.ofSource Attachment.defaultPlaceholders (.text fileName)
        source).widgets, w.Fits utf8.Has := by
  have hrefused (message : String) :
      Yields (fun p => p.write.MadeOf utf8.Has)
        (.ok (filled fileName source (.refused message))) := by
    rw [yields_ok, madeOf_write_filled]
    exact ⟨hname, hsource, List.forall_mem_singleton.2 (madeOf_ofString _)⟩
  unfold ofSource
  split
  · next hblank =>
    refine iff_of_true (hrefused _) fun w hw => ?_
    rw [widgets_of_isBlank hblank] at hw
    exact absurd hw List.not_mem_nil
  simp only
  split
  · next hempty =>
    refine iff_of_true (hrefused _) fun w hw => ?_
    rw [List.isEmpty_iff.1 hempty] at hw
    exact absurd hw List.not_mem_nil
  · next hwidgets =>
    have hP := holdsOfAscii_has utf8
    have hslash : utf8.Has (.char '/') := rfl
    let file : Value := .text fileName
    let p := ParsedFile.ofSource Attachment.defaultPlaceholders file source
    have hsourced : ∀ w ∈ Forest.toList p.widgets, w.name.IsWord ∧ w.IsTyped ∧ w.IsWritten :=
      fun w => ParsedFile.isSourced_of_mem_widgets Attachment.defaultPlaceholders file source
    have hshown : ∀ w ∈ Forest.toList p.widgets, w.ShownIn utf8.Has :=
      fun w hw => ParsedFile.shownIn_of_mem_widgets hw hP.printable fun l hl =>
        hsource.of_subset (Text.subset_of_mem_lines source l hl)
    have houtline : Yields (Text.MadeOf utf8.Has) (outline p) ↔
        ∀ w ∈ Forest.toList p.widgets, w.Fits utf8.Has := by
      rw [outline, if_neg hwidgets, Outline.yields_ofSubject_parsed .verbose true rfl hP,
        and_iff_right (Path.madeOf_name hslash hname)]
      exact forall₂_congr fun w hw => Outline.forall_parts_iff_fits hP.printable
        (madeOf_of_isWord (hsourced w hw).1) (hsourced w hw).2.1 (hshown w hw)
        (ParsedFile.isFound_of_mem_widgets hw)
    rw [yields_map, ← houtline, ← yields_result_iff (d := d) fun h =>
      yields_generated d rfl hsourced hshown fun w hw => (houtline.1 h w hw).text]
    refine yields_congr fun o => ?_
    rw [madeOf_write_filled, and_iff_right hname, and_iff_right hsource]

end Page

end LvglForest
