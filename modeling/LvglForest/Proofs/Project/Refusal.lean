import LvglForest.Proofs.Code.Fault
import LvglForest.Proofs.Disk.Refusal
import LvglForest.Proofs.Project.Export
import LvglForest.Proofs.Project.Spelling

/-!
# When an export has a result

An export reports what a disk refuses, and nothing else: a code point without bytes, a folder that
no path can name, a screen without a name and a number with too many digits all end it without a
result. Files are written in order, so a file without bytes counts only if it is reached
(`Export.writeFiles_fault`, `Export.Breaks`). What the files are made of can be read off the
screens, which makes the condition exact (`Export.run_answers_iff`).
-/

namespace LvglForest

/-! ## Rendering -/

namespace Rendering

variable {o : ExportOptions} {screens : List Screen} {used : List Text}

/-- A draft is missing where a name is no text. -/
theorem fault_of_mem_drafts {f : Fault} (h : .error f ∈ drafts o used screens) :
    f.kind = .noMember := by
  induction screens generalizing used with
  | nil => exact absurd h List.not_mem_nil
  | cons s screens ih =>
    rw [drafts] at h
    split at h
    · rcases List.mem_cons.1 h with h | h
      · cases h
      · exact ih h
    · next g hg =>
      cases List.mem_singleton.1 h
      cases hname : s.name with
      | text name => rw [hname] at hg; cases hg
      | _ => rw [hname] at hg; cases hg; rfl

theorem emissions_of_mem_drafts {d : Draft} (h : .ok d ∈ drafts o used screens) :
    ∃ s ∈ screens, d.emissions = Forest.emissions o.detail o.parentName [] 0 s.widgets := by
  induction screens generalizing used with
  | nil => exact absurd h List.not_mem_nil
  | cons s screens ih =>
    rw [drafts] at h
    split at h
    · rcases List.mem_cons.1 h with h | h
      · cases h
        exact ⟨s, List.mem_cons_self, rfl⟩
      · obtain ⟨s', hs', hd⟩ := ih h
        exact ⟨s', List.mem_cons_of_mem _ hs', hd⟩
    · exact absurd (List.mem_singleton.1 h) (by simp)

theorem settled_fault {rs : List (Except Fault Draft)} {f : Fault} (h : settled o rs = .error f) :
    .error f ∈ rs ∨ ∃ d, .ok d ∈ rs ∧ d.fault? o = some f := by
  induction rs with
  | nil => cases h
  | cons r rs ih =>
    cases r with
    | error g =>
      cases h
      exact .inl List.mem_cons_self
    | ok d =>
      rw [settled] at h
      split at h
      · next g hg =>
        cases h
        exact .inr ⟨d, List.mem_cons_self, hg⟩
      · rcases ih (Fault.eq_error_of_map h) with h | ⟨d', hd', hfault⟩
        · exact .inl (List.mem_cons_of_mem _ h)
        · exact .inr ⟨d', List.mem_cons_of_mem _ hd', hfault⟩

theorem isWord_symbol {ds : List Draft} (h : List.Forall₂ (Draft.IsOf o) screens ds) :
    ∀ d ∈ ds, d.symbol.IsWord := by
  induction h with
  | nil => exact fun _ hd => absurd hd List.not_mem_nil
  | cons hd _ ih => exact List.forall_mem_cons.2 ⟨hd.symbol, ih⟩

end Rendering

namespace Export

/-- The options that matter to whether an export has a result: the encoding is one of the two, the
header has a name that can be a path, and a line includes the library. -/
structure Fits (o : ExportOptions) (e : Encoding) : Prop where
  encoding : o.encoding = .text e.name
  header : ∃ h, o.headerName = .text h ∧ h.MadeOf CodePoint.FitsPath
  library : ∃ library, o.includeLine = .text library

variable {o : ExportOptions} {e : Encoding}

theorem Fits.showsHeader (ho : Fits o e) : o.ShowsHeader := by
  obtain ⟨h, hheader, -⟩ := ho.header
  exact ⟨h, by rw [hheader]; rfl⟩

section Rendering

variable (ho : Fits o e) {screens : List Screen}
  (hw : ∀ s ∈ screens, ∀ w ∈ Forest.toList s.widgets, w.IsTyped)
include ho hw

/-- Screens of typed widgets are rendered if they have names and what they show can be written. -/
theorem exists_rendered_iff :
    (∃ p, Project.ofScreens o screens = .ok p) ↔ (∀ s ∈ screens, ∃ name, s.name = .text name) ∧
      ∀ s ∈ screens, ∀ w ∈ Forest.toList s.unskipped.widgets, w.IsWritten := by
  constructor
  · intro h
    obtain ⟨p, hp⟩ := id h
    obtain ⟨_, _, -, -, hdrafts, -⟩ := Project.ofScreens_eq_ok.1 hp
    have hnames := Rendering.name_of_drafts hdrafts
    exact ⟨hnames, ((Project.exists_ofScreens_iff o fun s hs => ⟨hnames s hs, hw s hs⟩).1 h).2.2⟩
  · rintro ⟨hnames, hwritten⟩
    exact (Project.exists_ofScreens_iff o fun s hs => ⟨hnames s hs, hw s hs⟩).2
      ⟨ho.library, fun _ => ho.showsHeader, hwritten⟩

/-- No failure of rendering is reported. -/
theorem isReported_of_ofScreens {f : Fault} (h : Project.ofScreens o screens = .error f) :
    isReported f = false := by
  obtain ⟨library, hlibrary⟩ := ho.library
  unfold Project.ofScreens at h
  rw [hlibrary] at h
  split at h
  · next g hsettled =>
    cases h
    rcases Rendering.settled_fault hsettled with hmem | ⟨d, hd, hfault⟩
    · rw [isReported, Rendering.fault_of_mem_drafts hmem]
      rfl
    · obtain ⟨s, hs, hemissions⟩ := Rendering.emissions_of_mem_drafts hd
      rw [Rendering.Draft.fault?_of_showsHeader ho.showsHeader, hemissions] at hfault
      cases Forest.fault_of_mem_emissions s.widgets (hw s hs) (Emissions.mem_of_fault? hfault)
      rfl
  · cases h
  · next hline => exact absurd rfl (hline library)

end Rendering

/-! ## Writing -/

/-- The files up to one are written, and that one is opened but has no bytes. -/
def LacksBytes (o : ExportOptions) (e : Encoding) (folder : Path) (d : Disk)
    (files : List GeneratedFile) : Prop :=
  ∃ before f after name opened, files = before ++ f :: after ∧
    (writeFiles o folder d before).fault? = none ∧ f.name = .text name ∧
    (writeFiles o folder d before).disk.writeBytes (filePath folder name) [] = .ok opened ∧
    ¬ f.code.MadeOf e.Has

section Writing

variable {folder : Path} {d d₁ : Disk} {f : GeneratedFile} {name : Text}

theorem place_eq (he : o.encoding = .text e.name) (hname : f.name = .text name) :
    place o folder f = .ok (filePath folder name, e.name) := by
  rw [place, hname, he]
  rfl

variable (he : o.encoding = .text e.name) (hname : f.name = .text name)
include he hname

/-- A file that is written is followed by the others. -/
theorem writeFiles_of_written
    (hwrite : d.write e.name (filePath folder name) f.code = (d₁, none)) (fs : List GeneratedFile) :
    (writeFiles o folder d (f :: fs)).fault? = (writeFiles o folder d₁ fs).fault? ∧
      (writeFiles o folder d (f :: fs)).disk = (writeFiles o folder d₁ fs).disk := by
  rw [writeFiles, place_eq he hname]
  simp only [hwrite, and_self]

/-- A file that is not written is the last one that is tried. -/
theorem writeFiles_of_fault {fault : Fault}
    (hwrite : d.write e.name (filePath folder name) f.code = (d₁, some fault))
    (fs : List GeneratedFile) : (writeFiles o folder d (f :: fs)).fault? = some fault := by
  rw [writeFiles, place_eq he hname]
  simp only [hwrite]

theorem lacksBytes_of_written
    (hwrite : d.write e.name (filePath folder name) f.code = (d₁, none)) {fs : List GeneratedFile}
    (h : LacksBytes o e folder d₁ fs) : LacksBytes o e folder d (f :: fs) := by
  obtain ⟨before, g, after, gname, opened, rfl, hbefore, hgname, hopened, hcode⟩ := h
  obtain ⟨hfault, hdisk⟩ := writeFiles_of_written he hname hwrite before
  exact ⟨f :: before, g, after, gname, opened, rfl, hfault.trans hbefore, hgname,
    hdisk.symm ▸ hopened, hcode⟩

end Writing

section Files

variable {folder : Path} {d : Disk} {files : List GeneratedFile}
  (he : o.encoding = .text e.name)
include he

/-- **Files fail to be written** where the disk refuses one, or where the first that is not written
is opened but has no bytes. -/
theorem writeFiles_fault
    (hnames : ∀ f ∈ files, ∃ name, f.name = .text name ∧
      (filePath folder name).MadeOf CodePoint.FitsPath) {fault : Fault}
    (h : (writeFiles o folder d files).fault? = some fault) :
    (∃ cause path, fault = .disk cause path) ∨
      fault.kind = .unencodable ∧ LacksBytes o e folder d files := by
  induction files generalizing d with
  | nil => cases h
  | cons f files ih =>
    rw [List.forall_mem_cons] at hnames
    obtain ⟨⟨name, hname, hpath⟩, hnames⟩ := hnames
    cases hwrite : d.write e.name (filePath folder name) f.code with
    | mk d₁ fault? =>
      cases fault? with
      | none =>
        rw [(writeFiles_of_written he hname hwrite files).1] at h
        refine (ih hnames h).imp_right fun hbreaks => ⟨hbreaks.1, ?_⟩
        exact lacksBytes_of_written he hname hwrite hbreaks.2
      | some g =>
        rw [writeFiles_of_fault he hname hwrite files] at h
        cases h
        rcases Disk.write_fault hwrite with hopen | ⟨hopen, hencode⟩
        · obtain ⟨cause, hcause⟩ := Disk.writeBytes_fault hpath hopen
          exact .inl ⟨cause, _, hcause⟩
        · have hcode : ¬ f.code.MadeOf e.Has := by
            rw [← Encoding.exists_encode_iff, hencode]
            rintro ⟨_, h⟩
            cases h
          exact .inr ⟨Encoding.kind_of_encode hencode,
            [], f, files, name, d₁, rfl, rfl, hname, hopen, hcode⟩

/-- A file that is opened but has no bytes ends the export without a result. -/
theorem fault_of_lacksBytes (h : LacksBytes o e folder d files)
    (hnames : ∀ f ∈ files, ∃ name, f.name = .text name) :
    ∃ fault, (writeFiles o folder d files).fault? = some fault ∧ fault.kind = .unencodable := by
  obtain ⟨before, f, after, name, opened, rfl, hbefore, hname, hopened, hcode⟩ := h
  induction before generalizing d with
  | nil =>
    cases hencode : e.encode f.code with
    | ok bytes => exact absurd ((Encoding.exists_encode_iff e f.code).1 ⟨bytes, hencode⟩) hcode
    | error fault =>
      exact ⟨fault, writeFiles_of_fault he hname (Disk.write_of_encode hopened hencode) after,
        Encoding.kind_of_encode hencode⟩
  | cons g before ih =>
    obtain ⟨gname, hgname⟩ := hnames g List.mem_cons_self
    cases hwrite : d.write e.name (filePath folder gname) g.code with
    | mk d₁ fault? =>
      cases fault? with
      | none =>
        obtain ⟨hfault, hdisk⟩ := writeFiles_of_written he hgname hwrite before
        rw [hfault] at hbefore
        rw [hdisk] at hopened
        rw [List.cons_append, (writeFiles_of_written he hgname hwrite _).1]
        exact ih (fun f hf => hnames f (List.mem_cons_of_mem _ hf)) hbefore hopened
      | some fault =>
        rw [writeFiles_of_fault he hgname hwrite before] at hbefore
        cases hbefore

end Files

/-! ## Paths of files -/

theorem fitsPath_of_isWord {t : Text} (h : t.IsWord) : t.MadeOf CodePoint.FitsPath := by
  intro p hp
  have hword := h.all p hp
  cases p with
  | char c =>
    refine ⟨rfl, ?_⟩
    rintro ⟨⟩
    cases hword
  | surrogate n => cases CodePoint.isSurrogate_of_isWord hword

/-- A file in a folder has a path, if both have. -/
theorem fitsPath_filePath {folder name : Text} (hfolder : folder.MadeOf CodePoint.FitsPath)
    (hname : name.MadeOf CodePoint.FitsPath) :
    (filePath (Path.ofText folder) name).MadeOf CodePoint.FitsPath := by
  have hclean := (Path.isClean_ofText folder).join (Path.isClean_ofText name)
  have hparts {t : Text} (ht : t.MadeOf CodePoint.FitsPath) :=
    (Path.madeOf_parts_ofText ⟨rfl, by decide⟩ ⟨rfl, by decide⟩ t).2 ht
  rw [filePath, Path.madeOf_toText ⟨rfl, by decide⟩ ⟨rfl, by decide⟩ hclean.root, Path.join]
  split
  · exact List.forall_mem_append.2 ⟨hparts hfolder, hparts hname⟩
  · exact hparts hname

theorem fitsPath_files (ho : Fits o e) {screens : List Screen} {p : Project}
    (hp : Project.ofScreens o screens = .ok p) :
    ∀ f ∈ p.files, ∃ name, f.name = .text name ∧ name.MadeOf CodePoint.FitsPath := by
  obtain ⟨library, ds, -, -, hdrafts, -, rfl⟩ := Project.ofScreens_eq_ok.1 hp
  rw [Project.files_ofDrafts, List.forall_mem_cons, List.forall_mem_map, List.forall_mem_map]
  refine ⟨ho.header, fun d hd => ⟨_, rfl, ?_⟩⟩
  have hword := Rendering.isWord_symbol (Rendering.drafts_eq_ok o hdrafts).1 d hd
  refine Text.madeOf_append.2 ⟨fitsPath_of_isWord hword, ?_⟩
  simp [Text.ofString, CodePoint.FitsPath, Utf8.encodePoint?]

/-! ## Exports -/

/-- A project cannot be written: its folder is settled, and a file is opened there that has no
bytes. -/
def Breaks (o : ExportOptions) (e : Encoding) (folder : Path) (d : Disk) (p : Project) : Prop :=
  ∃ d₁, Disk.settleFolders folder.root folder.parts.reverse d = (d₁, none) ∧
    LacksBytes o e folder d₁ p.files

section Exports

variable {folder : Text} {d : Disk} {p : Project}

theorem writeTo_of_not (hfolder : ¬ folder.MadeOf CodePoint.FitsPath) :
    ∃ fault, (writeTo o (.text folder) d p).fault? = some fault ∧ isReported fault = false := by
  rw [← Path.madeOf_parts_ofText ⟨rfl, by decide⟩ ⟨rfl, by decide⟩] at hfolder
  have hparts : ¬ ∀ part ∈ (Path.ofText folder).parts.reverse, part.MadeOf CodePoint.FitsPath := by
    simpa using hfolder
  obtain ⟨fault, hfault, hsettled⟩ :=
    Disk.settleFolders_of_not (Path.isClean_ofText folder).root hparts d
  refine ⟨fault, ?_, ?_⟩
  · simp only [writeTo, write, hsettled]
  · rcases hfault with hkind | rfl
    · rw [isReported, hkind]
      rfl
    · rfl

variable (he : o.encoding = .text e.name)
include he

theorem writeTo_of_breaks (hnames : ∀ f ∈ p.files, ∃ name, f.name = .text name)
    (h : Breaks o e (.ofText folder) d p) :
    ∃ fault, (writeTo o (.text folder) d p).fault? = some fault ∧ isReported fault = false := by
  obtain ⟨d₁, hsettled, hlacks⟩ := h
  obtain ⟨fault, hfault, hkind⟩ := fault_of_lacksBytes he hlacks hnames
  refine ⟨fault, ?_, by rw [isReported, hkind]; rfl⟩
  simp only [writeTo, write, hsettled, hfault]

/-- **A project fails to be written** where the disk refuses something, or else without a report. -/
theorem writeTo_fault (hnames : ∀ f ∈ p.files, ∃ name, f.name = .text name ∧
      name.MadeOf CodePoint.FitsPath)
    (hfolder : folder.MadeOf CodePoint.FitsPath) {fault : Fault}
    (h : (writeTo o (.text folder) d p).fault? = some fault) :
    (∃ cause path, fault = .disk cause path) ∨
      isReported fault = false ∧ Breaks o e (.ofText folder) d p := by
  have hparts := (Path.madeOf_parts_ofText ⟨rfl, by decide⟩ ⟨rfl, by decide⟩ folder).2 hfolder
  simp only [writeTo, write] at h
  split at h
  · next d₁ g hsettled =>
    cases h
    exact .inl (Disk.settleFolders_fault (Path.isClean_ofText folder).root (by simpa using hparts)
      hsettled)
  · next d₁ hsettled =>
    have hpaths : ∀ f ∈ p.files, ∃ name, f.name = .text name ∧
        (filePath (.ofText folder) name).MadeOf CodePoint.FitsPath := by
      intro f hf
      obtain ⟨name, hname, hfits⟩ := hnames f hf
      exact ⟨name, hname, fitsPath_filePath hfolder hfits⟩
    refine (writeFiles_fault he hpaths h).imp_right fun hbreaks =>
      ⟨?_, d₁, hsettled, hbreaks.2⟩
    rw [isReported, hbreaks.1]
    rfl

end Exports

section Results

variable {screens : List Screen} {folder : Text} {d : Disk}

/-- The result of an export of screens. -/
def result (o : ExportOptions) (folder : Text) (d : Disk) (screens : List Screen) :
    Except Fault ExportOutcome :=
  (run o (.text folder) d (.list (screens.map .screen))).2.1

theorem result_of_rendering {fault : Fault} (h : Project.ofScreens o screens = .error fault) :
    result o folder d screens = (refusal (.text folder) fault).1 := by
  rw [result, run, Project.ofSubject, Subject.screens_of_screens]
  simp only [h]

theorem result_of_rendered {p : Project} (h : Project.ofScreens o screens = .ok p) :
    result o folder d screens = match (writeTo o (.text folder) d p).fault? with
      | none => .ok (.done p)
      | some fault => (refusal (.text folder) fault).1 := by
  rw [result, run, Project.ofSubject, Subject.screens_of_screens]
  simp only [h]
  cases (writeTo o (.text folder) d p).fault? <;> rfl

theorem refusal_of_isReported {v : Value} {fault : Fault} (h : isReported fault = true) :
    (refusal v fault).1 = .ok (.refused ("导出失败: " ++ fault.message)) := by
  rw [refusal, if_pos h]

theorem refusal_of_not {v : Value} {fault : Fault} (h : isReported fault = false) :
    (refusal v fault).1 = .error fault := by
  rw [refusal, if_neg (by rw [h]; exact Bool.false_ne_true)]

/-- Rendered files lead to a result unless they fail to be written without a report. -/
theorem exists_outcome_iff {p : Project} (h : Project.ofScreens o screens = .ok p) :
    (∃ outcome, result o folder d screens = .ok outcome) ↔
      ¬ ∃ fault, (writeTo o (.text folder) d p).fault? = some fault ∧ isReported fault = false := by
  rw [result_of_rendered h]
  cases (writeTo o (.text folder) d p).fault? with
  | none => exact iff_of_true ⟨_, rfl⟩ (fun ⟨_, h, _⟩ => nomatch h)
  | some fault =>
    cases hreported : isReported fault with
    | true =>
      refine iff_of_true ⟨_, refusal_of_isReported hreported⟩ ?_
      rintro ⟨_, ⟨⟩, h⟩
      rw [hreported] at h
      cases h
    | false =>
      simp only [refusal_of_not hreported]
      exact iff_of_false not_exists_ok fun h => h ⟨fault, rfl, hreported⟩

theorem exists_fault_iff (ho : Fits o e) {p : Project}
    (hnames : ∀ f ∈ p.files, ∃ name, f.name = .text name ∧ name.MadeOf CodePoint.FitsPath) :
    (∃ fault, (writeTo o (.text folder) d p).fault? = some fault ∧ isReported fault = false) ↔
      ¬ folder.MadeOf CodePoint.FitsPath ∨ Breaks o e (.ofText folder) d p := by
  constructor
  · rintro ⟨fault, hfault, hreported⟩
    refine or_iff_not_imp_left.2 fun hfolder => ?_
    rcases writeTo_fault ho.encoding hnames (not_not.1 hfolder) hfault with
      ⟨cause, path, rfl⟩ | ⟨-, hbreaks⟩
    · cases hreported
    · exact hbreaks
  · rintro (hfolder | hbreaks)
    · exact writeTo_of_not hfolder
    · exact writeTo_of_breaks ho.encoding (fun f hf => (hnames f hf).imp fun _ h => h.1) hbreaks

/-- A refusal gives a reason of the disk. -/
theorem message_of_refused (ho : Fits o e)
    (hw : ∀ s ∈ screens, ∀ w ∈ Forest.toList s.widgets, w.IsTyped) {message : Text}
    (h : result o folder d screens = .ok (.refused message)) :
    ∃ cause path, message = "导出失败: " ++ (Fault.disk cause path).message := by
  cases hproject : Project.ofScreens o screens with
  | error fault =>
    rw [result_of_rendering hproject,
      refusal_of_not (isReported_of_ofScreens ho hw hproject)] at h
    cases h
  | ok p =>
    rw [result_of_rendered hproject] at h
    split at h
    · cases h
    · next fault hfault =>
      cases hreported : isReported fault with
      | false =>
        rw [refusal_of_not hreported] at h
        cases h
      | true =>
        rw [refusal_of_isReported hreported] at h
        cases h
        have hfolder : folder.MadeOf CodePoint.FitsPath := by
          by_contra hfolder
          obtain ⟨g, hg, hunreported⟩ := writeTo_of_not (o := o) (d := d) (p := p) hfolder
          rw [hfault] at hg
          cases hg
          rw [hreported] at hunreported
          cases hunreported
        rcases writeTo_fault ho.encoding (fitsPath_files ho hproject) hfolder hfault with
          ⟨cause, path, rfl⟩ | ⟨hunreported, -⟩
        · exact ⟨cause, path, rfl⟩
        · rw [hreported] at hunreported
          cases hunreported

/-- What is done of an export that succeeds: every file has bytes, and there is a file at its
place. -/
theorem written_of_done (he : o.encoding = .text e.name) {p : Project}
    (h : result o folder d screens = .ok (.done p)) :
    Project.ofScreens o screens = .ok p ∧ ∀ f ∈ p.files, f.code.MadeOf e.Has ∧
      ∃ name bytes, f.name = .text name ∧
        (run o (.text folder) d (.list (screens.map .screen))).1.bytes
          (filePath (.ofText folder) name) = .ok bytes := by
  obtain ⟨d', log, hrun⟩ : ∃ d' log,
      run o (.text folder) d (.list (screens.map .screen)) = (d', .ok (.done p), log) :=
    ⟨_, _, Prod.ext rfl (Prod.ext h rfl)⟩
  obtain ⟨hp, t, ws, d₁, hfolder, -, hfiles, hws⟩ := run_eq_done hrun
  cases hfolder
  rw [Project.ofSubject, Subject.screens_of_screens] at hp
  refine ⟨hp, fun f hf => ?_⟩
  rw [← hfiles] at hf
  obtain ⟨w, hw, rfl⟩ := List.mem_map.1 hf
  obtain ⟨name, encoding, hname, hencoding, hbytes, hl⟩ := hws.isOf w hw
  obtain ⟨bytes, hfound⟩ := hws.isFile w hw
  have hat := Disk.found?_eq_file.1 hfound
  rw [he, Encoding.nameOf, Except.ok.injEq] at hencoding
  rw [← hencoding, Disk.bytesOf, Encoding.get_standard] at hbytes
  refine ⟨(Encoding.exists_encode_iff e _).1 ⟨_, hbytes⟩, name, bytes, hname, ?_⟩
  rw [hrun]
  simp only [Disk.bytes, Disk.find, hl, hat]

/-- **An export has a result** exactly if all screens have names, all numbers that are shown can be
written, the folder can be named by a path, and no file that is opened holds a code point without
bytes. A refusal then gives a reason of the disk, and a success means that every file was written.
That all files have bytes can be read off the screens and the options. -/
theorem run_answers_iff (ho : Fits o e)
    (hw : ∀ s ∈ screens, ∀ w ∈ Forest.toList s.widgets, w.IsTyped) (folder : Text) (d : Disk) :
    ((∃ outcome, result o folder d screens = .ok outcome) ↔
      (∀ s ∈ screens, ∃ name, s.name = .text name) ∧
      (∀ s ∈ screens, ∀ w ∈ Forest.toList s.unskipped.widgets, w.IsWritten) ∧
      folder.MadeOf CodePoint.FitsPath ∧
      ∀ p, Project.ofScreens o screens = .ok p → ¬ Breaks o e (.ofText folder) d p) ∧
    (∀ message, result o folder d screens = .ok (.refused message) →
      ∃ cause path, message = "导出失败: " ++ (Fault.disk cause path).message) ∧
    (∀ p, result o folder d screens = .ok (.done p) →
      Project.ofScreens o screens = .ok p ∧ ∀ f ∈ p.files, f.code.MadeOf e.Has ∧
        ∃ name bytes, f.name = .text name ∧
          (run o (.text folder) d (.list (screens.map .screen))).1.bytes
            (filePath (.ofText folder) name) = .ok bytes) ∧
    ∀ p, Project.ofScreens o screens = .ok p →
      ((∀ f ∈ p.files, f.code.MadeOf e.Has) ↔
        (∀ library, o.includeLine = .text library → library.MadeOf e.Has) ∧
          ∀ s ∈ screens, s.Spells e.Has o) := by
  have hrendered := exists_rendered_iff ho hw
  have htyped (hnames : ∀ s ∈ screens, ∃ name, s.name = .text name) :
      ∀ s ∈ screens, s.IsTyped := fun s hs => ⟨hnames s hs, hw s hs⟩
  refine ⟨?_, fun message => message_of_refused ho hw, fun p => written_of_done ho.encoding,
    fun p hp => Project.madeOf_files_iff e.holdsOfAscii_has
      (htyped (hrendered.1 ⟨p, hp⟩).1) hp⟩
  rw [← and_assoc, ← hrendered]
  cases hproject : Project.ofScreens o screens with
  | error fault =>
    rw [result_of_rendering hproject, refusal_of_not (isReported_of_ofScreens ho hw hproject)]
    exact iff_of_false not_exists_ok fun h => not_exists_ok h.1
  | ok p =>
    rw [exists_outcome_iff hproject, exists_fault_iff ho (fitsPath_files ho hproject), not_or,
      not_not]
    refine (and_congr_right fun _ => ?_).trans (and_iff_right ⟨p, rfl⟩).symm
    simp

/-- A widget of ASCII texts is exported in ASCII, or refused by the disk. -/
theorem run_answers_iff_ascii :
    let o : ExportOptions := { encoding := .text Encoding.ascii.name }
    let screens : List Screen := [⟨.text "s", [.node (.named "ok") []]⟩]
    Fits o .ascii ∧ (∀ s ∈ screens, ∀ w ∈ Forest.toList s.widgets, w.IsTyped) ∧
      ∃ outcome, result o "out" {} screens = .ok outcome := by
  intro o screens
  have ho : Fits o .ascii := by
    refine ⟨rfl, ⟨"ui.h", rfl, ?_⟩, _, rfl⟩
    simp [Text.ofString, CodePoint.FitsPath, Utf8.encodePoint?]
  have hw : ∀ s ∈ screens, ∀ w ∈ Forest.toList s.widgets, w.IsTyped := by
    simp [screens, Forest.toList, Tree.toList, Widget.isTyped_named]
  have hascii {t : Text} (h : ∀ p ∈ t, p.value < 0x80) : t.MadeOf Encoding.ascii.Has := h
  have hwidget : ∀ s ∈ screens, ∀ w ∈ Forest.toList s.unskipped.widgets, w = .named "ok" := by
    intro s hs w hw
    cases List.mem_singleton.1 hs
    simpa [Screen.unskipped, Forest.toList, Tree.toList] using
      (Forest.keep_of_mem_prune Widget.hasLegalName _ hw).2
  have hspells : ∀ s ∈ screens, s.Spells Encoding.ascii.Has o := by
    simp only [screens, List.forall_mem_singleton]
    refine ⟨fun t ht => hascii ?_, fun name hname => ?_, fun w hw => ?_⟩
    · revert t
      decide
    · cases hname
      exact hascii (by decide)
    · rw [hwidget _ List.mem_cons_self w hw]
      exact Widget.spells_named Encoding.ascii.holdsOfAscii_has _ (hascii (by decide))
  obtain ⟨hanswers, -, -, hfiles⟩ := run_answers_iff ho hw "out" {}
  refine ⟨ho, hw, hanswers.2 ⟨by simp [screens], fun s hs w hw => ?_, ?_, fun p hp hbreaks => ?_⟩⟩
  · rw [hwidget s hs w hw]
    exact Widget.isWritten_named "ok"
  · simp [Text.ofString, CodePoint.FitsPath, Utf8.encodePoint?]
  · have hlibrary : ∀ library, o.includeLine = .text library →
        library.MadeOf Encoding.ascii.Has := by
      rintro _ ⟨⟩
      exact hascii (by decide)
    obtain ⟨_, -, _, f, _, _, _, hf, -, -, -, hcode⟩ := hbreaks
    exact hcode ((hfiles p hp).2 ⟨hlibrary, hspells⟩ f (by rw [hf]; simp))

/-- The encoding and the code point of an export that was ended by a code point without bytes. -/
def raised? : Except Fault ExportOutcome → Option (Text × CodePoint)
  | .error (.unencodable encoding p) => some (encoding, p)
  | _ => none

theorem raised?_eq_some {r : Except Fault ExportOutcome} {encoding : Text} {p : CodePoint}
    (h : raised? r = some (encoding, p)) : r = .error (.unencodable encoding p) := by
  unfold raised? at h
  split at h <;> cases h
  rfl

/-- A degree sign in a label has no bytes in ASCII, and this is not reported. -/
theorem run_raises :
    let o : ExportOptions := { encoding := .text Encoding.ascii.name }
    let w : Widget := { kind := .text "label", identifier := .text "a", text := .text "25°C" }
    let s : Screen := ⟨.text "s", [.node w []]⟩
    Screen.ofValue (.record [("name", .text "s"), ("widgets", .list [.record [
      ("kind", .text "label"), ("identifier", .text "a"),
      ("properties", .record [("text", .text "25°C")])]])]) = .ok s ∧
      (∀ w ∈ Forest.toList s.widgets, w.IsTyped) ∧
      result o "out" {} [s] = .error (.unencodable "ascii" (.char '°')) := by
  repeat rw [Text.ofString_ofList]
  intro o w s
  refine ⟨by rfl, ?_, ?_⟩
  · rintro w hw
    obtain rfl := List.mem_singleton.1 hw
    exact ⟨rfl, ⟨_, rfl⟩, .inr ⟨_, rfl⟩, fun _ _ h => (nomatch h), fun _ h => (nomatch h)⟩
  · have hraised : raised? (result o "out" {} [s]) =
        some (("ascii" : Text), CodePoint.char '°') := by
      repeat rw [Text.ofString_ofList]
      decide +kernel
    exact raised?_eq_some hraised

end Results

end Export

end LvglForest
