import LvglForest.Page.Basic
import LvglForest.Proofs.Page.Tag

/-!
# The template of the page

The page is written with few choices: whether it shows why a source was refused, whether it shows a
result, and how many reports stand below that (`Page.Branches`). These choices alone decide which tags
a reader finds in the page (`Page.tagsIn_write`). All other texts on it stand in attributes and
elements and are read as text.
-/

namespace LvglForest.Page

open Markup

/-- The choices that the template leaves open. -/
structure Branches where
  hasError : Bool
  hasResult : Bool
  issues : Nat
  deriving DecidableEq

/-- The choices that are made for a page. -/
def branches : Page → Branches
  | .blank => { hasError := false, hasResult := false, issues := 0 }
  | .filled _ _ (.refused error) =>
    { hasError := !error.isEmpty, hasResult := false, issues := 0 }
  | .filled _ _ (.result outline _ issues) =>
    { hasError := false, hasResult := !outline.isEmpty, issues := issues.length }

/-! ## The tags of the template -/

/-- The tags of a list of reports. -/
def issueTags (n : Nat) : List Tag :=
  if n = 0 then [] else within "ul" ["class"] (List.replicate n (within "li" [] [])).flatten

/-- The tags of the outline and the code, with a number of reports. -/
def resultTags (issues : Nat) : List Tag :=
  within "div" ["class"]
    (within "div" [] (within "h2" [] [] ++ within "pre" [] []) ++
      within "div" [] (within "h2" [] [] ++ within "pre" [] [] ++ issueTags issues))

/-- The tags of the head of the page. -/
def headTags : List Tag :=
  within "head" []
    ({ name := "meta", attributes := ["charset"] } :: (within "title" [] [] ++ within "style" [] []))

/-- The tags of the form. -/
def formTags : List Tag :=
  within "form" ["method"]
    (within "label" [] [{ name := "input", attributes := ["type", "name", "value"] }] ++
      within "textarea" ["name", "placeholder"] [] ++ within "button" ["type"] [])

/-- The tags of the template for the choices that are made. -/
def templateTags (b : Branches) : List Tag :=
  within "html" ["lang"]
    (headTags ++
      within "body" []
        (within "h1" [] [] ++ formTags ++
          (if b.hasError then within "p" ["class"] [] else []) ++
          (if b.hasResult then resultTags b.issues else [])))

/-! ## The parts of the page -/

theorem tagsAll_newline (level : Nat) (ms : List Markup) :
    tagsAll (newline level :: ms) = tagsAll ms := tagsAll_text _ ms

theorem tagsAll_issues (issues : List Text) :
    tagsAll (issues.map fun issue => .element "li" [] [.text issue]) =
      (List.replicate issues.length (within "li" [] [])).flatten := by
  induction issues with
  | nil => exact tagsAll_nil
  | cons issue issues ih =>
    rw [List.map_cons, tagsAll_element, tagsAll_text, tagsAll_nil, ih]
    rfl

theorem tagsAll_issuesPart (issues : List Text) :
    tagsAll (issuesPart issues) = issueTags issues.length := by
  unfold issuesPart issueTags
  cases issues with
  | nil => exact tagsAll_nil
  | cons issue issues =>
    rw [if_neg (by simp), if_neg (by simp), ← tagsAll_issues]
    simp only [tagsAll_newline, tagsAll_element, tagsAll_append, tagsAll_nil, List.nil_append,
      List.append_nil, List.map_cons, List.map_nil]

theorem tagsAll_resultPart (outline code : Text) (issues : List Text) :
    tagsAll (resultPart outline code issues) =
      if (!outline.isEmpty) = true then resultTags issues.length else [] := by
  unfold resultPart resultTags
  cases outline with
  | nil => exact tagsAll_nil
  | cons p outline =>
    rw [if_neg (by simp), if_pos (by simp)]
    simp only [tagsAll_newline, tagsAll_text, tagsAll_element, tagsAll_append, tagsAll_nil,
      tagsAll_issuesPart, List.append_nil, List.map_cons, List.map_nil, List.append_assoc]

theorem tagsAll_errorPart (error : Text) :
    tagsAll (errorPart error) = if (!error.isEmpty) = true then within "p" ["class"] [] else [] := by
  unfold errorPart
  cases error with
  | nil => exact tagsAll_nil
  | cons p error =>
    rw [if_neg (by simp), if_pos (by simp)]
    simp only [tagsAll_newline, tagsAll_text, tagsAll_element, tagsAll_nil, List.append_nil,
      List.map_cons, List.map_nil]

theorem tags_head : head.tags = headTags := by
  rw [head, headTags]
  simp only [tags_element, tagsAll_newline, tagsAll_text, tagsAll_void, tagsAll_element,
    tagsAll_sheet, tagsAll_nil, List.append_nil, List.map_cons, List.map_nil]

theorem tags_form (fileName source : Text) : (form fileName source).tags = formTags := by
  rw [form, formTags]
  simp only [tags_element, tagsAll_newline, tagsAll_text, tagsAll_void, tagsAll_element,
    tagsAll_nil, List.append_nil, List.map_cons, List.map_nil, List.append_assoc]

theorem tags_body (fileName source : Text) (parts : List Markup × List Markup) :
    (body fileName source parts).tags =
      within "body" []
        (within "h1" [] [] ++ formTags ++ tagsAll parts.1 ++ tagsAll parts.2) := by
  have hform (ms : List Markup) : tagsAll (form fileName source :: ms) = formTags ++ tagsAll ms := by
    rw [tagsAll, tags_form]
  rw [body, tags_element]
  simp only [tagsAll_append, tagsAll_newline, tagsAll_text, tagsAll_element, hform, tagsAll_nil,
    List.append_nil, List.map_nil]

/-- The page is read alike for all file names and source texts. -/
theorem tags_document (fileName source : Text) (parts : List Markup × List Markup) :
    (layout.document fileName source parts).tags =
      within "html" ["lang"] (headTags ++
        within "body" []
          (within "h1" [] [] ++ formTags ++ tagsAll parts.1 ++ tagsAll parts.2)) := by
  have hcons (m : Markup) (ms : List Markup) : tagsAll (m :: ms) = m.tags ++ tagsAll ms := by
    rw [tagsAll]
  rw [layout.document, tags_element, tagsAll_newline, hcons, tagsAll_newline, hcons,
    tagsAll_newline, tagsAll_nil, List.append_nil, tags_head, tags_body]
  rfl

/-- The tags of a page are those of the template. -/
theorem tags_layout (p : Page) : (layout p).tags = templateTags p.branches := by
  match p with
  | .blank => rw [layout, tags_document]; rfl
  | .filled fileName source (.refused error) =>
    rw [layout, tags_document, outcomeParts, tagsAll_errorPart]
    rfl
  | .filled fileName source (.result outline code issues) =>
    rw [layout, tags_document, outcomeParts, tagsAll_resultPart]
    rfl

/-! ## Reading the page -/

/-- An element that may hold other elements can be read if its parts can. -/
theorem isReadable_element {name : Text} {attributes : List (Text × Text)} {children : List Markup}
    (hname : isName name = true) (htext : name ∉ textElements)
    (hnames : ∀ a ∈ attributes, isName a.1 = true) (h : AreReadable children) :
    (Markup.element name attributes children).IsReadable :=
  ⟨hname, hnames, .inr ⟨htext, h⟩⟩

theorem areReadable_issuesPart (issues : List Text) : AreReadable (issuesPart issues) := by
  have hissues : AreReadable (issues.map fun issue => .element "li" [] [.text issue]) := by
    rw [areReadable_iff, List.forall_mem_map]
    intro issue _
    exact isReadable_element (by decide) (by decide) (by decide) ⟨trivial, trivial⟩
  unfold issuesPart
  split
  · trivial
  · refine ⟨trivial, isReadable_element (by decide) (by decide) (by decide) ?_, trivial, trivial⟩
    rw [areReadable_append, areReadable_append]
    exact ⟨⟨⟨trivial, trivial⟩, hissues⟩, ⟨trivial, trivial⟩⟩

theorem areReadable_resultPart (outline code : Text) (issues : List Text) :
    AreReadable (resultPart outline code issues) := by
  have hheading (t : Text) : (Markup.element "h2" [] [.text t]).IsReadable :=
    isReadable_element (by decide) (by decide) (by decide) ⟨trivial, trivial⟩
  have hshown (t : Text) : (Markup.element "pre" [] [.text t]).IsReadable :=
    isReadable_element (by decide) (by decide) (by decide) ⟨trivial, trivial⟩
  unfold resultPart
  split
  · trivial
  · refine ⟨trivial, isReadable_element (by decide) (by decide) (by decide) ?_, trivial, trivial⟩
    refine ⟨trivial, isReadable_element (by decide) (by decide) (by decide) ?_, trivial,
      isReadable_element (by decide) (by decide) (by decide) ?_, trivial, trivial⟩
    · exact ⟨trivial, hheading _, trivial, hshown outline, trivial, trivial⟩
    · rw [areReadable_append, areReadable_append]
      exact ⟨⟨⟨trivial, hheading _, trivial, hshown code, trivial, trivial⟩,
        areReadable_issuesPart issues⟩, trivial, trivial⟩

theorem areReadable_errorPart (error : Text) : AreReadable (errorPart error) := by
  unfold errorPart
  split
  · trivial
  · exact ⟨trivial, isReadable_element (by decide) (by decide) (by decide) ⟨trivial, trivial⟩,
      trivial, trivial⟩

theorem isReadable_head : head.IsReadable := by
  have hcharset : (Markup.void "meta" [("charset", "utf-8")]).IsReadable :=
    ⟨by decide, by decide, by decide⟩
  have htitle : (Markup.element "title" [] [.text "LVGL Bridge"]).IsReadable :=
    ⟨by decide, by decide, .inl ⟨by decide, ["LVGL Bridge"], rfl⟩⟩
  have hsheet : (Markup.sheet sheet).IsReadable := by
    show CodePoint.char '<' ∉ sheet
    have hline {cs : List Char} (h : '<' ∉ cs) :
        CodePoint.char '<' ∉ Text.ofString (.ofList cs) := by
      rw [Text.ofString, String.toList_ofList]
      intro hmem
      obtain ⟨c, hc, heq⟩ := List.mem_map.1 hmem
      cases heq
      exact h hc
    simp only [sheet, List.mem_append, not_or]
    exact ⟨⟨⟨⟨⟨hline (by decide), hline (by decide)⟩, hline (by decide)⟩, hline (by decide)⟩,
      hline (by decide)⟩, hline (by decide)⟩
  refine isReadable_element (by decide) (by decide) (by decide) ?_
  exact ⟨trivial, hcharset, trivial, htitle, trivial, hsheet, trivial, trivial⟩

theorem isReadable_form (fileName source : Text) : (form fileName source).IsReadable := by
  refine isReadable_element (by decide) (by decide) (fun a ha => ?_)
    ⟨trivial, ?label, trivial, ?area, trivial, ?button, trivial, trivial⟩
  · rw [List.mem_singleton.1 ha]
    decide
  case label =>
    have hnames : ∀ a ∈ [(("type" : Text), ("text" : Text)), ("name", "file_name"),
        ("value", fileName)], isName a.1 = true := by
      simp only [List.forall_mem_cons]
      exact ⟨by decide, by decide, by decide, nofun⟩
    exact isReadable_element (by decide) (by decide) nofun
      ⟨trivial, ⟨by decide, by decide, hnames⟩, trivial⟩
  case area => exact ⟨by decide, by decide, .inl ⟨by decide, [source], rfl⟩⟩
  case button =>
    exact isReadable_element (by decide) (by decide) (by decide) ⟨trivial, trivial⟩

theorem isReadable_document (fileName source : Text) {parts : List Markup × List Markup}
    (h : AreReadable parts.1) (h' : AreReadable parts.2) :
    (layout.document fileName source parts).IsReadable := by
  have hheading : (Markup.element "h1" [] [.text "LVGL Bridge"]).IsReadable :=
    isReadable_element (by decide) (by decide) (by decide) ⟨trivial, trivial⟩
  have hbody : (body fileName source parts).IsReadable := by
    refine isReadable_element (by decide) (by decide) (by decide) ?_
    simp only [areReadable_append]
    have hfront : AreReadable [newline 1, .element "h1" [] [.text "LVGL Bridge"], newline 1,
        form fileName source, newline 0, newline 1] :=
      ⟨trivial, hheading, trivial, isReadable_form fileName source, trivial, trivial, trivial⟩
    exact ⟨⟨⟨⟨hfront, h⟩, trivial, trivial, trivial⟩, h'⟩, trivial, trivial⟩
  refine isReadable_element (by decide) (by decide) (by decide) ?_
  exact ⟨trivial, isReadable_head, trivial, hbody, trivial, trivial⟩

/-- The page can be read, whatever is on it. -/
theorem isReadable_layout (p : Page) : (layout p).IsReadable := by
  match p with
  | .blank => exact isReadable_document _ _ trivial trivial
  | .filled fileName source (.refused error) =>
    exact isReadable_document _ _ (areReadable_errorPart error) trivial
  | .filled fileName source (.result outline code issues) =>
    exact isReadable_document _ _ trivial (areReadable_resultPart outline code issues)

/-- **The tags in a written page** are those of the template for the choices that are made, whatever
the texts on the page are. -/
theorem tagsIn_write (p : Page) : tagsIn p.write = templateTags p.branches := by
  have hdeclaration : Reads (.content none) "<!doctype html>\n" [] (.content none) := rfl
  have hpage := hdeclaration.append (reads_write (layout p) (isReadable_layout p))
  rw [write, hpage.tagsIn_eq, List.nil_append, tags_layout]

end LvglForest.Page
