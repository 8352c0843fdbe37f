import Mathlib
import LvglForest.Proofs.Page
import LvglForest.Proofs.Service.Answer

/-!
# Posted forms

A form with a file name and a source text is answered with a page. The page can be sent if it has no
surrogates (`Response.code_ofPage`). Texts that are sent in a form have none, but an escape in a
literal of the source can make one, and the outline shows it as it is. So the status is 200 exactly
if all widgets of the source fit (`Service.respond_renders_iff`).
-/

namespace LvglForest

open Encoding

/-- A page can be sent exactly if it has no surrogates. -/
theorem Response.code_ofPage (p : Page) :
    (ofPage p).code ∈ [200, 500] ∧ ((ofPage p).code = 200 ↔ p.write.MadeOf utf8.Has) := by
  rw [ofPage, code]
  split
  · next hany =>
    obtain ⟨q, hq, hsurrogate⟩ := List.any_eq_true.1 hany
    refine ⟨by decide, iff_of_false (by decide) fun h => ?_⟩
    have hclear : q.isSurrogate = false := h q hq
    rw [hclear] at hsurrogate
    cases hsurrogate
  · next hany =>
    exact ⟨by decide, iff_of_true rfl fun q hq => Bool.eq_false_iff.2 fun hsurrogate =>
      hany (List.any_eq_true.2 ⟨q, hq, hsurrogate⟩)⟩

namespace Service

/-! ## Forms -/

/-- The source text that a form gives. -/
def givenSource (fields : List (Text × Text)) : Text := (Table.get? "source_text" fields).getD []

/-- The file name that a form gives, without the blanks around it, or else the common one. -/
def givenFile (fields : List (Text × Text)) : Text :=
  let given := Text.strip ((Table.get? "file_name" fields).getD [])
  if given.isEmpty then Page.defaultFileName else given

/-- The widgets of the source text that a form gives. -/
def givenWidgets (fields : List (Text × Text)) : List Widget :=
  Forest.toList (ParsedFile.ofSource Attachment.defaultPlaceholders (.text (givenFile fields))
    (givenSource fields)).widgets

/-- The file name and the source text of a form have no surrogates. -/
structure AreCharacters (fields : List (Text × Text)) : Prop where
  file : ((Table.get? "file_name" fields).getD []).MadeOf utf8.Has
  source : (givenSource fields).MadeOf utf8.Has

theorem AreCharacters.givenFile {fields : List (Text × Text)} (h : AreCharacters fields) :
    (givenFile fields).MadeOf utf8.Has := by
  unfold Service.givenFile
  simp only
  split
  · exact madeOf_ofString _
  · exact h.file.of_subset (Text.strip_subset _)

theorem response_servePage (s : Settings) (d : Disk) (fields : List (Text × Text)) :
    (servePage s d fields).response =
      match Page.ofSource s.detail (givenFile fields) (givenSource fields) with
      | .ok p => .ofPage p
      | .error _ => .failure :=
  rfl

/-- A form of characters is answered with a page that can be sent exactly if all widgets fit. -/
theorem code_servePage (s : Settings) (d : Disk) {fields : List (Text × Text)}
    (h : AreCharacters fields) :
    (servePage s d fields).response.code ∈ [200, 500] ∧
      ((servePage s d fields).response.code = 200 ↔ ∀ w ∈ givenWidgets fields, w.Fits utf8.Has) := by
  have hpage := Page.yields_ofSource_iff s.detail h.givenFile h.source
  rw [response_servePage]
  show _ ∧ (_ ↔ ∀ w ∈ Forest.toList (ParsedFile.ofSource Attachment.defaultPlaceholders
    (.text (givenFile fields)) (givenSource fields)).widgets, w.Fits utf8.Has)
  rw [← hpage]
  cases Page.ofSource s.detail (givenFile fields) (givenSource fields) with
  | ok p =>
    rw [yields_ok]
    exact Response.code_ofPage p
  | error f =>
    show 500 ∈ [200, 500] ∧ (500 = 200 ↔ _)
    exact ⟨by decide, iff_of_false (by decide) yields_error⟩

/-! ## Requests -/

/-- A request that posts a form with certain fields to the page. -/
structure PostsForm (w : Framework) (r : Request) (fields : List (Text × Text)) : Prop where
  verb : r.verb = "POST"
  socket : r.target.isSocket = false
  path : r.target.path = "/"
  given : w.form r = .ok fields

/-- A posted form is answered with the page for its fields. -/
theorem respond_posted {w : Framework} (hw : w.IsLawful) (s : Settings) (d : Disk) {r : Request}
    {fields : List (Text × Text)} (h : PostsForm w r fields) :
    respond w s d r = servePage s d fields := by
  have hlead : w.lead r = .ok .page := by
    refine hw.lead_of_path ?_ ?_ h.socket
    · rw [h.path]
      rfl
    · rw [h.verb]
      decide
  have hget : ¬ r.verb = "GET" := by
    rw [h.verb]
    decide
  rw [respond_eq_serve hlead, serve, if_neg (verb_ne_options h.verb), if_neg hget, h.given]
  rfl

/-- **A posted form is answered with a page** that can be sent exactly if the texts of all widgets of
the source have no surrogates and the numbers of their lines do not have too many digits. Otherwise
the status is 500. -/
theorem respond_renders_iff {w : Framework} (hw : w.IsLawful) (s : Settings) (d : Disk)
    {r : Request} {fields : List (Text × Text)} (hr : PostsForm w r fields)
    (hfields : AreCharacters fields) :
    (respond w s d r).response.code ∈ [200, 500] ∧
      ((respond w s d r).response.code = 200 ↔ ∀ w ∈ givenWidgets fields, w.Fits utf8.Has) := by
  rw [respond_posted hw s d hr]
  exact code_servePage s d hfields

/-! ## Sent forms -/

/-- A request that posts a form with a file name and a source text. -/
def filling (fileName source : String) : Request where
  method := "POST"
  target := { path := "/" }
  body := .form [("file_name", fileName), ("source_text", source)]

theorem areCharacters_filling (fileName source : String) :
    AreCharacters (filling fileName source).body.fields where
  file := madeOf_ofString fileName
  source := madeOf_ofString source

theorem verb_filling (fileName source : String) : (filling fileName source).verb = "POST" := by
  show ("POST" : Text).flatMap CodePoint.asciiCapitals = "POST"
  decide

theorem postsForm_filling (fileName source : String) : PostsForm .standard
    (filling fileName source) (filling fileName source).body.fields where
  verb := verb_filling fileName source
  socket := rfl
  path := rfl
  given := rfl

theorem givenSource_filling (fileName source : String) :
    givenSource (filling fileName source).body.fields = source := rfl

/-- A label with a text. -/
def labelled : String := "l = lv_label_create(parent);\nlv_label_set_text(l, \"ok\");"

/-- A label with a text of one byte that is no character. -/
def byteLabelled : String := "l = lv_label_create(parent);\nlv_label_set_text(l, \"\\xff\");"

theorem not_fits_byteLabelled :
    ¬ ∀ w ∈ givenWidgets (filling "a.cpp" byteLabelled).body.fields, w.Fits utf8.Has := by
  have hwidgets (file : Value) : (Forest.toList (ParsedFile.ofSource Attachment.defaultPlaceholders
      file byteLabelled).widgets).map Widget.text = [.text [.ofStrayByte 0xff]] := by cbv
  obtain ⟨w, hw, htext⟩ := List.map_eq_singleton_iff.1 (hwidgets _)
  intro hfits
  rw [givenWidgets, givenSource_filling, hw, List.forall_mem_singleton] at hfits
  have hclear : (CodePoint.ofStrayByte 0xff).isSurrogate = false :=
    hfits.text _ htext _ List.mem_cons_self
  revert hclear
  decide

theorem shown_labelled (file : Value) : (Forest.toList (ParsedFile.ofSource
    Attachment.defaultPlaceholders file labelled).widgets).map (fun w =>
      (w.name, w.text, w.source.first, w.source.last)) =
    [(("l" : Text), .text "ok", .integer 1, .integer 2)] := by cbv

/-- A text of characters is sent, and one with a byte that is no character is not. -/
theorem respond_renders_iff_labelled :
    (respond .standard {} {} (filling "a.cpp" labelled)).response.code = 200 ∧
      (respond .standard {} {} (filling "a.cpp" byteLabelled)).response.code ≠ 200 := by
  have hrenders (source : String) := (respond_renders_iff Framework.isLawful_standard {} {}
    (postsForm_filling "a.cpp" source) (areCharacters_filling "a.cpp" source)).2
  refine ⟨(hrenders labelled).2 ?_, fun h => not_fits_byteLabelled ((hrenders byteLabelled).1 h)⟩
  obtain ⟨w, hw, hshown⟩ := List.map_eq_singleton_iff.1 (shown_labelled _)
  obtain ⟨-, htext, hfirst, hlast⟩ : w.name = "l" ∧ w.text = .text "ok" ∧
      w.source.first = .integer 1 ∧ w.source.last = .integer 2 := by simpa using hshown
  rw [givenWidgets, givenSource_filling, hw, List.forall_mem_singleton]
  refine ⟨fun t ht => ?_, ?_, ?_⟩
  · rw [htext] at ht
    cases ht
    exact madeOf_ofString "ok"
  · rw [hfirst]
    exact Value.canShow_integer (by decide)
  · rw [hlast]
    exact Value.canShow_integer (by decide)

/-- A byte that is no character. -/
theorem respond_byteLabelled :
    AreCharacters (filling "a.cpp" byteLabelled).body.fields ∧
      (respond .standard {} {} (filling "a.cpp" byteLabelled)).response.code = 500 := by
  have hfields := areCharacters_filling "a.cpp" byteLabelled
  refine ⟨hfields, ?_⟩
  rw [respond_posted Framework.isLawful_standard {} {} (postsForm_filling "a.cpp" byteLabelled)]
  obtain ⟨hcode, hiff⟩ := code_servePage {} {} hfields
  rw [List.mem_cons, List.mem_singleton] at hcode
  exact hcode.resolve_left fun h => not_fits_byteLabelled (hiff.1 h)

end Service

end LvglForest
