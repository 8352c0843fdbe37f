import Mathlib
import LvglForest.Proofs.Page.Template
import LvglForest.Proofs.Service.Page

/-!
# What is sent makes no tags

The page that answers a posted form shows the form again, and below it an error if the source text has
no widgets, or else a result with a number of reports (`Page.Answers`). File names, source texts, texts
of widgets, generated code and reports all come from whoever sends the form. Whatever they are, a
reader finds the tags of the template in the page and no others (`Service.respond_sameTags`).
-/

namespace LvglForest

open Encoding Markup

namespace Page

/-- The page that answers a posted form with certain fields. -/
structure Answers (d : Detail) (fields : List (Text × Text)) (p : Page) : Prop where
  filled : ∃ outcome,
    p = .filled (Service.givenFile fields) (Service.givenSource fields) outcome
  error : Service.givenWidgets fields = [] →
    p.branches = { hasError := true, hasResult := false, issues := 0 }
  result : Service.givenWidgets fields ≠ [] → ∃ project,
    Project.ofSubject { detail := d } (.parsed (ParsedFile.ofSource Attachment.defaultPlaceholders
      (.text (Service.givenFile fields)) (Service.givenSource fields))) = .ok project ∧
    p.branches = { hasError := false, hasResult := true, issues := project.issues.length }

/-- An outline has a heading at least. -/
theorem ne_nil_of_outline {p : ParsedFile} {file t : Text} (hfile : p.fileName = .text file)
    (h : outline p = .ok t) : t ≠ [] := by
  unfold outline at h
  split at h
  · cases h
    decide
  · rw [Outline.ofSubject_eq .verbose true hfile] at h
    obtain ⟨items, -, rfl⟩ := exists_of_map_eq_ok h
    have hheading : Outline.fileHeading (Path.ofText file).name ≠ [] := by
      unfold Outline.fileHeading
      split
      · decide
      · exact fun hnil => by simp [Text.ofString] at hnil
    intro hnil
    rw [Text.join, List.append_assoc] at hnil
    exact hheading (List.append_eq_nil_iff.1 hnil).1

/-- What a page shows of a parsed file is a result with one report for each issue. -/
theorem branches_result {d : Detail} {p : ParsedFile} {file : Text} {outcome : PageOutcome}
    (hfile : p.fileName = .text file) (h : result d p = .ok outcome) (name source : Text) :
    ∃ project, Project.ofSubject { detail := d } (.parsed p) = .ok project ∧
      (filled name source outcome).branches =
        { hasError := false, hasResult := true, issues := project.issues.length } := by
  obtain ⟨tree, htree, h⟩ := exists_of_bind_eq_ok h
  obtain ⟨⟨code, issues⟩, hgenerated, h⟩ := exists_of_bind_eq_ok h
  cases h
  obtain ⟨project, hproject, hshown⟩ := exists_of_map_eq_ok hgenerated
  cases hshown
  have hempty : tree.isEmpty = false := by
    rw [List.isEmpty_eq_false_iff]
    exact ne_nil_of_outline hfile htree
  refine ⟨project, hproject, ?_⟩
  rw [branches, hempty, List.length_map]
  rfl

/-- **The page for the source text of a form** answers the form. -/
theorem answers_of_ofSource {d : Detail} {fields : List (Text × Text)} {p : Page}
    (h : ofSource d (Service.givenFile fields) (Service.givenSource fields) = .ok p) :
    p.Answers d fields := by
  have hrefused {message : String} (hmessage : (Text.ofString message).isEmpty = false)
      (hwidgets : Service.givenWidgets fields = []) :
      (filled (Service.givenFile fields) (Service.givenSource fields)
        (.refused message)).Answers d fields :=
    { filled := ⟨_, rfl⟩
      error := fun _ => by rw [branches, hmessage]; rfl
      result := fun h => absurd hwidgets h }
  unfold ofSource at h
  split at h
  · next hblank =>
    cases h
    refine hrefused rfl ?_
    rw [Service.givenWidgets, widgets_of_isBlank hblank]
    rfl
  simp only at h
  split at h
  · next hempty =>
    cases h
    refine hrefused rfl ?_
    rw [Service.givenWidgets, List.isEmpty_iff.1 hempty]
    rfl
  · next hwidgets =>
    obtain ⟨outcome, houtcome, rfl⟩ := exists_of_map_eq_ok h
    refine ⟨⟨outcome, rfl⟩, fun hnone => absurd ?_ hwidgets, fun _ => ?_⟩
    · have hroots := Forest.roots_sublist_toList (ParsedFile.ofSource
        Attachment.defaultPlaceholders (.text (Service.givenFile fields))
        (Service.givenSource fields)).widgets
      rw [show Forest.toList _ = [] from hnone, List.sublist_nil, List.map_eq_nil_iff] at hroots
      rw [hroots]
      rfl
    · exact branches_result rfl houtcome _ _

end Page

namespace Service

section Requests

variable {w : Framework} {s s' : Settings} {d d' : Disk} {r r' : Request}
  {fields fields' : List (Text × Text)}

theorem answers_of_respond (hw : w.IsLawful) (h : PostsForm w r fields) {code : Nat} {p : Page}
    (hp : (respond w s d r).response = .page code p) : p.Answers s.detail fields := by
  rw [respond_posted hw s d h, response_servePage] at hp
  split at hp
  · next q hq =>
    cases hp
    exact Page.answers_of_ofSource hq
  · cases hp

/-- The text that is sent for a posted form has the tags of the template. -/
theorem tagsIn_pageText (h : PostsForm w r fields) (p : Page) :
    tagsIn (Response.pageText r.verb p) = Page.templateTags p.branches := by
  have hhead : ¬ ("POST" : Text) = "HEAD" := by decide
  rw [Response.pageText, h.verb, if_neg hhead, Page.tagsIn_write]

/-- **What is sent makes no tags.** Any two posted forms are answered with pages that show their file
names and source texts, and an error or a result. If both show an error, or both show a result with
equally many reports, the tags in the pages and the names of the attributes are the same: those of the
template. -/
theorem respond_sameTags (hw : w.IsLawful) (hr : PostsForm w r fields)
    (hr' : PostsForm w r' fields') {code code' : Nat} {p p' : Page}
    (hp : (respond w s d r).response = .page code p)
    (hp' : (respond w s' d' r').response = .page code' p') (hbranches : p.branches = p'.branches) :
    (p.Answers s.detail fields ∧ p'.Answers s'.detail fields') ∧
      tagsIn (Response.pageText r.verb p) = tagsIn (Response.pageText r'.verb p') ∧
      tagsIn (Response.pageText r.verb p) = Page.templateTags p.branches := by
  refine ⟨⟨answers_of_respond hw hr hp, answers_of_respond hw hr' hp'⟩, ?_, tagsIn_pageText hr p⟩
  rw [tagsIn_pageText hr, tagsIn_pageText hr', hbranches]

end Requests

/-- Nothing is reported on widgets whose names are identifiers. -/
theorem branches_of_isIdentifier {d : Detail} {fields : List (Text × Text)} {p : Page}
    (hp : p.Answers d fields) (hsome : givenWidgets fields ≠ [])
    (hnames : ∀ w ∈ givenWidgets fields, w.name.isIdentifier = true) :
    p.branches = { hasError := false, hasResult := true, issues := 0 } := by
  obtain ⟨project, hproject, hbranches⟩ := hp.result hsome
  obtain ⟨project', f, hexported⟩ :=
    ParsedFile.exists_isExported (o := { detail := d }) rfl ⟨_, rfl⟩ rfl fun w hw =>
      ParsedFile.isSourced_of_mem_widgets Attachment.defaultPlaceholders
        (.text (givenFile fields)) (givenSource fields) (w := w) hw
  cases Except.ok.inj (hproject.symm.trans hexported.rendered)
  rw [hbranches, hexported.issues.2 hnames]
  rfl

/-! ## Forms with tags in them -/

/-- A source has one label in two lines, with a text. -/
def ShowsLabel (source text : String) : Prop :=
  ∀ file : Value, (Forest.toList (ParsedFile.ofSource Attachment.defaultPlaceholders
      file source).widgets).map (fun w => (w.name, w.text, w.source.first, w.source.last)) =
    [(("l" : Text), Value.text text, Value.integer 1, Value.integer 2)]

/-- A label whose text is the end of the form and a script. -/
def scripted : String :=
  "l = lv_label_create(parent);\nlv_label_set_text(l, \"</textarea><script>\");"

theorem showsLabel_labelled : ShowsLabel labelled "ok" := shown_labelled

theorem showsLabel_scripted : ShowsLabel scripted "</textarea><script>" := by
  intro file
  cbv

/-- A form with one label is answered with a result and no reports. -/
theorem exists_page {source text : String} (h : ShowsLabel source text) (fileName : String) :
    ∃ p, (respond .standard {} {} (filling fileName source)).response = .page 200 p ∧
      p.branches = { hasError := false, hasResult := true, issues := 0 } := by
  obtain ⟨w, hw, hshown⟩ := List.map_eq_singleton_iff.1 (h (.text (givenFile
    (filling fileName source).body.fields)))
  obtain ⟨hname, htext, hfirst, hlast⟩ : w.name = "l" ∧ w.text = .text text ∧
      w.source.first = .integer 1 ∧ w.source.last = .integer 2 := by simpa using hshown
  have hwidgets : givenWidgets (filling fileName source).body.fields = [w] := hw
  have hfits : ∀ w ∈ givenWidgets (filling fileName source).body.fields, w.Fits utf8.Has := by
    rw [hwidgets, List.forall_mem_singleton]
    refine ⟨fun t ht => ?_, ?_, ?_⟩
    · rw [htext] at ht
      cases ht
      exact madeOf_ofString text
    · rw [hfirst]
      exact Value.canShow_integer (by decide)
    · rw [hlast]
      exact Value.canShow_integer (by decide)
  have hform := postsForm_filling fileName source
  have hposted := respond_posted Framework.isLawful_standard {} {} hform
  have hcode := (code_servePage {} {} (areCharacters_filling fileName source)).2.2 hfits
  rw [← hposted] at hcode
  obtain ⟨p, hp⟩ :
      ∃ p, (respond .standard {} {} (filling fileName source)).response = .page 200 p := by
    rw [hposted, response_servePage] at hcode ⊢
    cases hpage : Page.ofSource ({} : Settings).detail
        (givenFile (filling fileName source).body.fields)
        (givenSource (filling fileName source).body.fields) with
    | error f =>
      rw [hpage] at hcode
      cases hcode
    | ok p =>
      rw [hpage] at hcode
      refine ⟨p, ?_⟩
      simp only [Response.ofPage, Response.code] at hcode ⊢
      rw [hcode]
  refine ⟨p, hp, branches_of_isIdentifier (answers_of_respond
    Framework.isLawful_standard hform hp) ?_ ?_⟩
  · rw [hwidgets]
    exact List.cons_ne_nil w []
  · rw [hwidgets, List.forall_mem_singleton, hname]
    decide

/-- A file name that closes its attribute and a text that ends the form, compared with harmless
ones. -/
theorem respond_sameTags_scripted :
    ∃ p p', (respond .standard {} {} (filling "\"><b>" scripted)).response = .page 200 p ∧
      (respond .standard {} {} (filling "a.cpp" labelled)).response = .page 200 p' ∧
      p.branches = p'.branches ∧
      tagsIn (Response.pageText "POST" p) = tagsIn (Response.pageText "POST" p') := by
  obtain ⟨p, hp, hbranches⟩ := exists_page showsLabel_scripted "\"><b>"
  obtain ⟨p', hp', hbranches'⟩ := exists_page showsLabel_labelled "a.cpp"
  have hsame : p.branches = p'.branches := hbranches.trans hbranches'.symm
  refine ⟨p, p', hp, hp', hsame, ?_⟩
  have htags := (respond_sameTags Framework.isLawful_standard (postsForm_filling "\"><b>" scripted)
    (postsForm_filling "a.cpp" labelled) hp hp' hsame).2.1
  rw [verb_filling, verb_filling] at htags
  exact htags

end Service

end LvglForest
