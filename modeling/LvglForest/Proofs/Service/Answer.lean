import Mathlib
import LvglForest.Proofs.Project.Described
import LvglForest.Proofs.Project.Import
import LvglForest.Proofs.Service.Framework
import LvglForest.Proofs.Service.Reading

/-!
# Requests without an answer

A request to import sources or to export screens is answered unless what it carries is no record. A
record to import never fails (`Service.code_serveImport`). A record to export fails where reading
its screens ends unanswered, or where screens that are read and not written to a disk cannot be
rendered (`Service.isStatus_serveExport`): rendering stands outside of what faults are answered for.
Together these are all the requests that fail (`Service.respond_fails_iff`).
-/

namespace LvglForest

/-- The status of an answer. -/
def Response.code : Response → Nat
  | .status code => code
  | .document code _ => code
  | .page code _ => code

namespace Service

/-- A value that is no record has no fields. -/
theorem exists_field_fault {v : Value} (h : ∀ fs, v ≠ .record fs) (name : Text) :
    ∃ f, v.field name = .error f := by
  cases v with
  | record fs => exact absurd rfl (h fs)
  | _ => exact ⟨_, rfl⟩

/-! ## Imports -/

theorem exists_textOr {v : Value} (hv : v.Converts) (default : Text) :
    ∃ t, textOr default v = .ok t :=
  Value.exists_display (hv.orElse trivial)

/-- The sources that a list of files gives are always found. -/
theorem exists_sources {files : List Value} (h : Value.ItemsConvert files) :
    ∃ given, sources files = .ok given := by
  refine exists_mapM fun r hr => ?_
  obtain ⟨v, hv, hr⟩ := List.mem_filterMap.1 hr
  unfold source? at hr
  split at hr
  · next fs =>
    have hfs : Value.FieldsConvert fs := Value.itemsConvert_iff.1 h _ hv
    obtain ⟨name, hname⟩ := exists_textOr (Value.converts_given hfs "file_name")
      Page.defaultFileName
    obtain ⟨content, hcontent⟩ := exists_textOr (Value.converts_given hfs "content") []
    cases hr
    exact ⟨_, by rw [id, hname, hcontent]; rfl⟩
  · cases hr

theorem code_serveImport_of_not_record (d : Disk) {v : Value} (h : ∀ fs, v ≠ .record fs) :
    (serveImport d v).response.code = 500 := by
  obtain ⟨f, hf⟩ := exists_field_fault h "files"
  rw [serveImport, hf]
  rfl

/-- **An import of a record is answered.** -/
theorem code_serveImport (d : Disk) {fs : Table Value} (hfs : Value.FieldsConvert fs) :
    (serveImport d (.record fs)).response.code ∈ [200, 400, 403] := by
  have hfiles := Value.converts_given hfs "files"
  have hfield : (Value.record fs).field "files" = .ok ((fs.get? "files").getD .null) := rfl
  unfold serveImport
  rw [hfield]
  split
  · next h => cases h
  · next files h =>
    rw [Except.ok.inj h] at hfiles
    obtain ⟨given, hgiven⟩ := exists_sources hfiles
    obtain ⟨v, hv⟩ := ImportOutcome.exists_toValue_ofSources {} given
    simp only [hgiven, hv, Response.code]
    decide
  · show 400 ∈ [200, 400, 403]
    decide

/-! ## Exports -/

/-- A status is one of an answer, or 500 for a request that fails. -/
def IsStatus (code : Nat) (fails : Prop) : Prop :=
  code ∈ [200, 400, 403, 500] ∧ (code = 500 ↔ fails)

theorem isStatus_of_answer {code : Nat} {fails : Prop} (h : code ∈ [200, 400, 403])
    (hnot : ¬ fails) : IsStatus code fails := by
  have hcode : code = 200 ∨ code = 400 ∨ code = 403 := by simpa using h
  refine ⟨?_, iff_of_false ?_ hnot⟩
  · rcases hcode with rfl | rfl | rfl <;> decide
  · rcases hcode with rfl | rfl | rfl <;> decide

theorem isStatus_of_failure {fails : Prop} (h : fails) : IsStatus 500 fails :=
  ⟨by decide, iff_of_true rfl h⟩

/-- An export that fails: reading its screens ends unanswered, or they are read, no folder is given,
and one of them cannot be rendered. -/
inductive BreaksExport (fs : Table Value) : Prop where
  | reading {vs : List Value} (hscreens : fs.get? "screens" = some (.list vs))
      (h : EndsAt Screen.ofValues Screen.EndsReading vs) : BreaksExport fs
  | rendering {vs : List Value} {ss : List Screen} (hscreens : fs.get? "screens" = some (.list vs))
      (hread : Screen.ofValues vs = .ok ss)
      (hfolder : ((fs.get? "output_dir").getD .null).isTrue = false)
      (h : ∃ s ∈ ss, ¬ s.IsUsable) : BreaksExport fs

/-- An export has no screens to read unless they are a list. -/
theorem not_breaksExport {fs : Table Value}
    (h : ∀ vs, (fs.get? "screens").getD .null ≠ .list vs) : ¬ BreaksExport fs := by
  rintro (⟨hscreens, -⟩ | ⟨hscreens, -, -, -⟩) <;>
  · rw [hscreens] at h
    exact h _ rfl

section Reading

variable {fs : Table Value} {vs : List Value} (hscreens : fs.get? "screens" = some (.list vs))
include hscreens

theorem breaksExport_iff_of_read {ss : List Screen} (hread : Screen.ofValues vs = .ok ss) :
    BreaksExport fs ↔
      ((fs.get? "output_dir").getD .null).isTrue = false ∧ ∃ s ∈ ss, ¬ s.IsUsable := by
  constructor
  · rintro (⟨hscreens', h⟩ | ⟨hscreens', hread', hfolder, h⟩) <;>
      cases hscreens.symm.trans hscreens'
    · obtain ⟨f, hf, -⟩ := (Screen.endsUnanswered_iff vs).2 h
      cases hread.symm.trans hf
    · cases hread.symm.trans hread'
      exact ⟨hfolder, h⟩
  · exact fun ⟨hfolder, h⟩ => .rendering hscreens hread hfolder h

theorem breaksExport_iff_of_fault {f : Fault} (hread : Screen.ofValues vs = .error f) :
    BreaksExport fs ↔ isInvalidTree f = false := by
  constructor
  · rintro (⟨hscreens', h⟩ | ⟨hscreens', hread', -, -⟩) <;>
      cases hscreens.symm.trans hscreens'
    · obtain ⟨g, hg, hunanswered⟩ := (Screen.endsUnanswered_iff vs).2 h
      cases hread.symm.trans hg
      exact hunanswered
    · cases hread.symm.trans hread'
  · exact fun h => .reading hscreens ((Screen.endsUnanswered_iff vs).1 ⟨f, hread, h⟩)

end Reading

theorem code_serveExport_of_not_record (s : Settings) (d : Disk) {v : Value}
    (h : ∀ fs, v ≠ .record fs) : (serveExport s d v).response.code = 500 := by
  obtain ⟨f, hf⟩ := exists_field_fault h "screens"
  rw [serveExport, hf]
  rfl

section Exports

variable {s : Settings} (hs : s.diskExport = false) (d : Disk)
include hs

/-- Screens that are read fail to be exported where they are rendered and cannot be. -/
theorem isStatus_serveScreens (folder : Value) {ss : List Screen}
    (hss : ∀ s ∈ ss, ∀ w ∈ Forest.toList s.widgets, w.IsPresentable) :
    IsStatus (serveScreens s d folder ss).response.code
      (folder.isTrue = false ∧ ∃ s ∈ ss, ¬ s.IsUsable) := by
  have husable :=
    Project.exists_ofScreens_iff_isUsable (o := { detail := s.detail }) rfl ⟨_, rfl⟩ hss
  unfold serveScreens
  simp only [hs, Bool.false_eq_true, if_false, Project.ofSubject, Subject.screens_of_screens]
  cases folder.isTrue with
  | true =>
    show IsStatus 403 _
    exact isStatus_of_answer (by decide) fun h => Bool.false_ne_true h.1.symm
  | false =>
    rw [if_neg Bool.false_ne_true, and_iff_right rfl]
    cases hproject : Project.ofScreens { detail := s.detail } ss with
    | ok p =>
      show IsStatus 200 _
      refine isStatus_of_answer (by decide) ?_
      rintro ⟨s, hs, h⟩
      exact h (husable.1 ⟨p, hproject⟩ s hs)
    | error f =>
      refine isStatus_of_failure ?_
      by_contra hall
      obtain ⟨p, hp⟩ := husable.2 fun s hs => by_contra fun h => hall ⟨s, hs, h⟩
      rw [hproject] at hp
      cases hp

/-- **An export of a record fails** where reading ends unanswered, and where what is read cannot be
rendered. -/
theorem isStatus_serveExport {fs : Table Value} (hfs : Value.FieldsConvert fs) :
    IsStatus (serveExport s d (.record fs)).response.code (BreaksExport fs) := by
  have hconverts := Value.converts_given hfs "screens"
  have hfield (name : Text) :
      (Value.record fs).field name = .ok ((fs.get? name).getD .null) := rfl
  unfold serveExport
  simp only [hfield]
  split
  · next h => cases h
  · next vs h =>
    have hvs := Except.ok.inj h
    have hscreens : fs.get? "screens" = some (.list vs) := by
      cases hget : fs.get? "screens" with
      | none => rw [hget] at hvs; cases hvs
      | some v => rw [hget] at hvs; exact congrArg some hvs
    rw [hvs] at hconverts
    cases hread : Screen.ofValues vs with
    | ok ss =>
      have hss := Screen.isPresentable_of_ofValues (Value.itemsConvert_iff.1 hconverts) hread
      rw [breaksExport_iff_of_read hscreens hread]
      exact isStatus_serveScreens hs d _ hss
    | error f =>
      rw [breaksExport_iff_of_fault hscreens hread]
      simp only
      split
      · next hanswered =>
        show IsStatus 400 _
        exact isStatus_of_answer (by decide) (ne_false_of_eq_true hanswered)
      · next hunanswered => exact isStatus_of_failure (eq_false_of_ne_true hunanswered)
  · next v hv h =>
    show IsStatus 400 _
    refine isStatus_of_answer (by decide) (not_breaksExport fun vs hvs => ?_)
    rw [hvs] at h
    exact hv vs (Except.ok.inj h).symm

end Exports

/-! ## Requests -/

/-- A payload that a route has no answer for: one that is no record, or for exports a record that
breaks them. -/
def IsUnanswerable (route : Route) (v : Value) : Prop :=
  (∀ fs, v ≠ .record fs) ∨ route = .exporting ∧ ∃ fs, v = .record fs ∧ BreaksExport fs

theorem isUnanswerable_record_iff {route : Route} {fs : Table Value} :
    IsUnanswerable route (.record fs) ↔ route = .exporting ∧ BreaksExport fs := by
  unfold IsUnanswerable
  rw [or_iff_right fun h => h fs rfl]
  simp only [Value.record.injEq, exists_eq_left']

theorem verb_ne_options {r : Request} (hverb : r.verb = "POST") : r.verb ≠ "OPTIONS" := by
  rw [hverb]
  decide

section Requests

variable {w : Framework} {s : Settings} {d : Disk} {r : Request} {route : Route}

/-- A request is served by the route that it is led to. -/
theorem respond_eq_serve (h : w.lead r = .ok route) : respond w s d r = serve w s d r route := by
  rw [respond, h]
  rfl

variable {v : Value} (hv : payload w r = .ok v)
include hv

/-- What is carried has numbers that are not too long. -/
theorem converts_payload (hw : w.IsLawful) : v.Converts := by
  unfold payload at hv
  cases hgiven : w.document r with
  | error code =>
    rw [hgiven] at hv
    cases hv
  | ok given =>
    rw [hgiven] at hv
    cases hv
    exact (hw.converts_document hgiven).orElse trivial

theorem serve_importing (hverb : r.verb = "POST") : serve w s d r .importing = serveImport d v := by
  rw [serve, if_neg (verb_ne_options hverb), hv]
  rfl

theorem serve_exporting (hverb : r.verb = "POST") :
    serve w s d r .exporting = serveExport s d v := by
  rw [serve, if_neg (verb_ne_options hverb), hv]
  rfl

end Requests

/-- **Every posted import and export is answered** with 200, 400 or 403, but for those that fail:
they carry what is no record, or screens for an export that end reading unanswered or cannot be
rendered. -/
theorem respond_fails_iff {w : Framework} (hw : w.IsLawful) {s : Settings}
    (hs : s.diskExport = false) (d : Disk) {r : Request} (hverb : r.verb = "POST")
    (hsocket : r.target.isSocket = false) {route : Route}
    (hroute : route.path? = some r.target.path) (hapi : route = .importing ∨ route = .exporting)
    {v : Value} (hv : payload w r = .ok v) :
    (respond w s d r).response.code ∈ [200, 400, 403, 500] ∧
      ((respond w s d r).response.code = 500 ↔ IsUnanswerable route v) := by
  have hconverts := converts_payload hv hw
  have hlead : w.lead r = .ok route := by
    refine hw.lead_of_path hroute ?_ hsocket
    rw [hverb]
    rcases hapi with rfl | rfl <;> decide
  rw [respond_eq_serve hlead]
  show IsStatus _ _
  by_cases hrecord : ∃ fs, v = .record fs
  · obtain ⟨fs, rfl⟩ := hrecord
    rw [isUnanswerable_record_iff]
    rcases hapi with rfl | rfl
    · rw [serve_importing hv hverb]
      exact isStatus_of_answer (code_serveImport d hconverts) fun h => nomatch h.1
    · rw [serve_exporting hv hverb, and_iff_right rfl]
      exact isStatus_serveExport hs d hconverts
  · have hshape : ∀ fs, v ≠ .record fs := fun fs hfs => hrecord ⟨fs, hfs⟩
    have hfails : (serve w s d r route).response.code = 500 := by
      rcases hapi with rfl | rfl
      · rw [serve_importing hv hverb, code_serveImport_of_not_record d hshape]
      · rw [serve_exporting hv hverb, code_serveExport_of_not_record s d hshape]
    rw [hfails]
    exact isStatus_of_failure (.inl hshape)

/-! ## Documents that are posted -/

/-- A request that posts a document to a path. -/
def posting (path document : Text) : Request where
  method := "POST"
  target := { path }
  body := .document "application/json" ((Utf8.encode? document).getD [])

theorem verb_posting (path document : Text) : (posting path document).verb = "POST" := by
  show ("POST" : Text).flatMap CodePoint.asciiCapitals = "POST"
  decide

/-- A screen with a widget whose anchor has one item. -/
def halfAnchored : Text := "\x7b\"screens\":[\x7b\"widgets\":[\x7b\"anchor\":[0]\x7d]\x7d]\x7d"

theorem payload_halfAnchored : payload .standard (posting "/api/export" halfAnchored) =
    .ok (.record [("screens",
      .list [.record [("widgets", .list [.record [("anchor", .list [.integer 0])]])]])]) := by
  cbv

/-- An anchor with one item fails, and a record of nothing does not. -/
theorem respond_fails_iff_halfAnchored :
    (respond .standard {} {} (posting "/api/export" halfAnchored)).response.code = 500 ∧
      (respond .standard {} {} (posting "/api/export" "\x7b\x7d")).response.code ≠ 500 := by
  have hempty : payload .standard (posting "/api/export" "\x7b\x7d") = .ok (.record []) := by cbv
  have hroute : Route.exporting.path? = some "/api/export" := rfl
  have hfails {document : Text} {v : Value}
      (hv : payload .standard (posting "/api/export" document) = .ok v) :=
    (respond_fails_iff Framework.isLawful_standard (s := {}) rfl {}
      (verb_posting "/api/export" document) rfl hroute (.inr rfl) hv).2
  refine ⟨(hfails payload_halfAnchored).2 ?_, fun h => absurd ((hfails hempty).1 h) ?_⟩
  · have hwidget : Widget.EndsReading [("anchor", .list [.integer 0])] :=
      .inr ⟨_, rfl, rfl, .list _⟩
    rw [isUnanswerable_record_iff]
    exact ⟨rfl, .reading rfl ⟨[], _, [], [], rfl, rfl, _, rfl, _, rfl, [], _, [], [], rfl, rfl,
      .here hwidget⟩⟩
  · rw [isUnanswerable_record_iff]
    exact fun h => not_breaksExport (fun vs hvs => by cases hvs) h.2

/-- A list fails. -/
theorem respond_fails :
    payload .standard (posting "/api/import" "[1]") = .ok (.list [.integer 1]) ∧
      (respond .standard {} {} (posting "/api/import" "[1]")).response.code = 500 := by
  have hpayload : payload .standard (posting "/api/import" "[1]") = .ok (.list [.integer 1]) := by
    cbv
  refine ⟨hpayload, ?_⟩
  have hroute : Route.importing.path? = some "/api/import" := rfl
  have htakes : Route.importing.takes (posting "/api/import" "[1]").verb = true := by
    rw [verb_posting]
    decide
  have hlead := Framework.isLawful_standard.lead_of_path hroute htakes rfl
  rw [respond_eq_serve hlead, serve_importing hpayload (verb_posting _ _)]
  rfl

end Service

end LvglForest
