import LvglForest.Project.Export
import LvglForest.Proofs.Disk.Basic
import LvglForest.Proofs.Project.Definition
import LvglForest.Proofs.Project.RoundTrip
import LvglForest.Proofs.Project.Symbol

/-!
# Exports keep their files apart

The files of a project are written one after the other, and each replaces what its place held. Two
files of one place would leave the bytes of the last one only, so what is written is found on the
disk if the places are distinct (`Export.writeFiles_written`). The files of screens have distinct
places because their symbols are distinct, and the header has another place than all of them if the
last part of its name does not end as the files of screens do (`Export.nodup_places`).

Whatever the names of screens are, an export that succeeds therefore leaves every file on the disk
as it was generated, and no other file is touched (`Export.run_keepsApart`). It does not matter in
which encoding the files are written.
-/

namespace LvglForest

namespace Export

variable {codecs : Codecs} {o : ExportOptions} {folder : Path} {d d' : Disk}

/-! ## Writing -/

/-- A generated file, the place where it is written, and the bytes that are written there. -/
structure Writing where
  file : GeneratedFile
  place : List Text
  bytes : List UInt8

/-- What is written is a file's code in the chosen encoding, where the file's name leads. -/
def Writing.IsOf (codecs : Codecs) (o : ExportOptions) (folder : Path) (d : Disk) (w : Writing) :
    Prop :=
  ∃ name encoding, w.file.name = .text name ∧ Encoding.nameOf o.encoding = .ok encoding ∧
    Disk.bytesOf encoding w.file.code codecs = .ok w.bytes ∧
    d.locate (filePath folder name) = .ok w.place

theorem Writing.IsOf.mono (h : Disk.Extends d d') {w : Writing} :
    w.IsOf codecs o folder d → w.IsOf codecs o folder d' :=
  fun ⟨name, encoding, hname, hencoding, hbytes, hl⟩ =>
    ⟨name, encoding, hname, hencoding, hbytes, h.locate hl⟩

/-- Files are written one after the other. -/
structure Written (codecs : Codecs) (o : ExportOptions) (folder : Path) (ws : List Writing)
    (d d' : Disk) : Prop where
  isOf : ∀ w ∈ ws, w.IsOf codecs o folder d'
  grown : Disk.Extends d d'
  isFile : ∀ w ∈ ws, ∃ bytes, d'.found? w.place = some (.file bytes)
  stored : (ws.map Writing.place).Nodup → ∀ w ∈ ws, d'.found? w.place = some (.file w.bytes)
  others : ∀ place, place ∉ ws.map Writing.place → d'.found? place = d.found? place

namespace Written

variable {ws : List Writing}

theorem nil (d : Disk) : Written codecs o folder [] d d where
  isOf _ hw := absurd hw List.not_mem_nil
  grown := .refl d
  isFile _ hw := absurd hw List.not_mem_nil
  stored _ _ hw := absurd hw List.not_mem_nil
  others _ _ := rfl

theorem cons {w : Writing} {d₁ : Disk} (hw : w.IsOf codecs o folder d)
    (hsets : Disk.Sets w.place (.file w.bytes) d d₁) (h : Written codecs o folder ws d₁ d') :
    Written codecs o folder (w :: ws) d d' where
  isOf := List.forall_mem_cons.2 ⟨hw.mono (hsets.toExtends.trans h.grown), h.isOf⟩
  grown := hsets.toExtends.trans h.grown
  isFile := by
    refine List.forall_mem_cons.2 ⟨?_, h.isFile⟩
    by_cases hagain : w.place ∈ ws.map Writing.place
    · obtain ⟨w', hw', heq⟩ := List.mem_map.1 hagain
      rw [← heq]
      exact h.isFile w' hw'
    · exact ⟨w.bytes, (h.others _ hagain).trans hsets.set⟩
  stored hnodup := by
    rw [List.map_cons, List.nodup_cons] at hnodup
    exact List.forall_mem_cons.2 ⟨(h.others _ hnodup.1).trans hsets.set, h.stored hnodup.2⟩
  others place hplace := by
    rw [List.map_cons, List.mem_cons, not_or] at hplace
    exact (h.others place hplace.2).trans (hsets.others place hplace.1)

theorem noFolder (h : Written codecs o folder ws d d') :
    ∀ w ∈ ws, d'.found? w.place ≠ some .folder := by
  intro w hw hfolder
  obtain ⟨bytes, hbytes⟩ := h.isFile w hw
  rw [hbytes] at hfolder
  cases hfolder

end Written

/-- What is written without a fault. -/
theorem writeFiles_written (codecs : Codecs) (o : ExportOptions) (folder : Path) (d : Disk)
    (files : List GeneratedFile) (h : (writeFiles o folder d files codecs).fault? = none) :
    ∃ ws, ws.map Writing.file = files ∧
      Written codecs o folder ws d (writeFiles o folder d files codecs).disk := by
  induction files generalizing d with
  | nil => exact ⟨[], rfl, .nil d⟩
  | cons f files ih =>
    rw [writeFiles] at h ⊢
    split at h
    · cases h
    · next path encoding hplace =>
      split at h
      · cases h
      · next d₁ hwrite =>
        simp only
        obtain ⟨bytes, place, hbytes, hl, hsets⟩ := Disk.write_eq_ok hwrite
        obtain ⟨ws, hfiles, hws⟩ := ih d₁ h
        unfold Export.place at hplace
        split at hplace
        · next name hname =>
          cases hencoding : Encoding.nameOf o.encoding with
          | error f => rw [hencoding] at hplace; cases hplace
          | ok encoding' =>
            rw [hencoding] at hplace
            cases hplace
            exact ⟨⟨f, place, bytes⟩ :: ws, congrArg (f :: ·) hfiles,
              .cons ⟨name, encoding, hname, hencoding, hbytes, hl⟩ hsets hws⟩
        · cases hplace

/-! ## Distinct places -/

section Places

theorem ofText_fileName {symbol : Text} (h : symbol.IsWord) :
    Path.ofText (Symbol.fileName symbol) = ⟨[], [Symbol.fileName symbol]⟩ := by
  obtain ⟨p, t, rfl⟩ := List.exists_cons_of_ne_nil h.ne_nil
  have hslash : .char '/' ∉ p :: t ++ (".cpp" : Text) := by
    rw [List.mem_append, not_or]
    exact ⟨fun hmem => absurd (h.all _ hmem) (by decide), by decide⟩
  have hfirst : p ≠ .char '/' := fun hp => hslash (hp ▸ List.mem_cons_self)
  unfold Path.ofText Symbol.fileName
  rw [Text.splitOn_of_not_mem hslash]
  simp [hfirst, Text.ofString]

/-- A file whose name is one part of a path stands in the folder that its path names. -/
theorem place_filePath {name : Text} {place : List Text} (hfolder : folder.IsClean)
    (hname : Path.ofText name = ⟨[], [name]⟩) (hl : d.locate (filePath folder name) = .ok place)
    (hfile : d.found? place ≠ some .folder) :
    ∃ dir, d.follow (d.start folder) folder.parts = .ok dir ∧ place = dir ++ [name] := by
  have hfollow := Disk.follow_of_locate (hfolder.join (Path.isClean_ofText _)) hl
  have hjoin : folder.join ⟨[], [name]⟩ = { folder with parts := folder.parts ++ [name] } := rfl
  rw [hname, hjoin, if_neg (by simp)] at hfollow
  obtain ⟨dir, hdir, -, hplace⟩ := Disk.follow_concat hfollow hfile
  exact ⟨dir, hdir, hplace⟩

variable {w : Writing} (hfolder : folder.IsClean) (hw : w.IsOf codecs o folder d)
  (hfile : d.found? w.place ≠ some .folder)
include hfolder hw hfile

/-- The file of a screen stands in the folder that the project is written into. -/
theorem place_screenFile {symbol : Text} (hsymbol : symbol.IsWord)
    (hname : w.file.name = .text (Symbol.fileName symbol)) :
    ∃ dir, d.follow (d.start folder) folder.parts = .ok dir ∧
      w.place = dir ++ [Symbol.fileName symbol] := by
  obtain ⟨name, -, hname', -, -, hl⟩ := hw
  rw [hname, Value.text.injEq] at hname'
  subst hname'
  exact place_filePath hfolder (ofText_fileName hsymbol) hl hfile

/-- A file whose name has another last part stands elsewhere. -/
theorem place_ne {h last : Text} (hname : w.file.name = .text h)
    (hlast : (Path.ofText h).name ≠ last) {dir : List Text}
    (hdir : d.follow (d.start folder) folder.parts = .ok dir) : w.place ≠ dir ++ [last] := by
  obtain ⟨name, -, hname', -, -, hl⟩ := hw
  rw [hname, Value.text.injEq] at hname'
  subst hname'
  have hfollow := Disk.follow_of_locate (hfolder.join (Path.isClean_ofText h)) hl
  intro hplace
  rcases List.eq_nil_or_concat (Path.ofText h).parts with hparts | ⟨before, part, hparts⟩
  · split at hfollow
    · exact hfile (Disk.found?_of_follow_dot hfollow)
    · -- A name without parts leaves the folder, in which the place would have to be.
      next hne =>
      have hjoin : folder.join (Path.ofText h) = folder := by
        unfold Path.join at hne ⊢
        split
        · rw [hparts, List.append_nil]
        · next hroot => exact absurd hparts (by simpa [hroot] using hne)
      rw [hjoin, hdir, Except.ok.injEq] at hfollow
      have hlength := congrArg List.length (hfollow.trans hplace)
      simp at hlength
  · rw [List.concat_eq_append] at hparts
    have hpart : (Path.ofText h).name = part := by
      rw [Path.name, hparts, List.getLast?_concat, Option.getD_some]
    obtain ⟨before', hjoin⟩ : ∃ before', (folder.join (Path.ofText h)).parts = before' ++ [part] := by
      unfold Path.join
      split
      · exact ⟨folder.parts ++ before, by simp [hparts]⟩
      · exact ⟨before, hparts⟩
    rw [hjoin, if_neg (by simp)] at hfollow
    obtain ⟨dir', -, -, hplace'⟩ := Disk.follow_concat hfollow hfile
    obtain ⟨-, hsame⟩ := List.append_inj' (hplace'.symm.trans hplace) rfl
    exact hlast (hpart.trans (List.singleton_inj.1 hsame))

end Places

section Screens

variable (hfolder : folder.IsClean) {symbols : List Text}
  (hwords : ∀ symbol ∈ symbols, symbol.IsWord) {ws : List Writing}
  (hnames : ws.map (·.file.name) = symbols.map fun symbol => .text (Symbol.fileName symbol))
include hfolder hwords hnames

/-- The files of screens stand side by side. -/
theorem places_screenFiles (hws : ∀ w ∈ ws, w.IsOf codecs o folder d)
    (hfile : ∀ w ∈ ws, d.found? w.place ≠ some .folder) {dir : List Text}
    (hdir : d.follow (d.start folder) folder.parts = .ok dir) :
    ws.map Writing.place = symbols.map fun symbol => dir ++ [Symbol.fileName symbol] := by
  induction ws generalizing symbols with
  | nil =>
    cases symbols with
    | nil => rfl
    | cons symbol symbols => cases hnames
  | cons w ws ih =>
    cases symbols with
    | nil => cases hnames
    | cons symbol symbols =>
      rw [List.map_cons, List.map_cons, List.cons.injEq] at hnames
      rw [List.forall_mem_cons] at hwords hws hfile
      obtain ⟨dir', hdir', hplace⟩ := place_screenFile hfolder hws.1 hfile.1 hwords.1 hnames.1
      rw [hdir, Except.ok.injEq] at hdir'
      rw [List.map_cons, List.map_cons, ih hwords.2 hnames.2 hws.2 hfile.2, hplace, hdir']

/-- **Files of one project stand at distinct places**, if the last part of the header's name does
not end as the files of screens do. -/
theorem nodup_places (hnodup : symbols.Nodup) {w : Writing}
    (hheader : ∀ h, w.file.name = .text h → ¬ (".cpp" : Text) <:+ (Path.ofText h).name)
    (hws : Written codecs o folder (w :: ws) d d') : ((w :: ws).map Writing.place).Nodup := by
  obtain ⟨hw, hscreens⟩ := List.forall_mem_cons.1 hws.isOf
  obtain ⟨hfile, hfiles⟩ := List.forall_mem_cons.1 hws.noFolder
  cases ws with
  | nil => exact List.nodup_singleton w.place
  | cons w₁ ws =>
    cases symbols with
    | nil => cases hnames
    | cons symbol symbols =>
      -- The folder of the first screen's file is that of all of them.
      obtain ⟨dir, hdir, -⟩ := place_screenFile hfolder (hscreens w₁ List.mem_cons_self)
        (hfiles w₁ List.mem_cons_self) (hwords symbol List.mem_cons_self) (List.cons.inj hnames).1
      rw [List.map_cons, places_screenFiles hfolder hwords hnames hscreens hfiles hdir]
      refine List.nodup_cons.2 ⟨fun hmem => ?_, hnodup.map fun a b h => ?_⟩
      · obtain ⟨symbol, -, hplace⟩ := List.mem_map.1 hmem
        obtain ⟨h, -, hname, -⟩ := id hw
        have hlast : (Path.ofText h).name ≠ Symbol.fileName symbol := fun hlast =>
          hheader h hname (hlast ▸ List.suffix_append symbol _)
        exact place_ne hfolder hw hfile hname hlast hdir hplace.symm
      · exact Symbol.fileName_injective (List.singleton_inj.1 (List.append_cancel_left h))

end Screens

/-! ## Exports -/

/-- A project is on the disk, and no other file has changed. -/
structure Stores (codecs : Codecs) (o : ExportOptions) (folder : Path) (p : Project)
    (d d' : Disk) : Prop where
  /-- Every file holds the bytes of its code in the chosen encoding. -/
  file : ∀ f ∈ p.files, ∃ name encoding bytes, f.name = .text name ∧
    Encoding.nameOf o.encoding = .ok encoding ∧ Disk.bytesOf encoding f.code codecs = .ok bytes ∧
    d'.bytes (filePath folder name) = .ok bytes
  /-- Any other place holds a file exactly if it did so before, and the same one. -/
  other : ∀ place, (∀ f ∈ p.files, ∀ name, f.name = .text name →
      d'.locate (filePath folder name) ≠ .ok place) →
    ∀ bytes, d'.at? place = some (.file bytes) ↔ d.at? place = some (.file bytes)
  /-- Paths lead where they led before. -/
  path : ∀ path place, d.locate path = .ok place → d'.locate path = .ok place

theorem Written.stores {p : Project} {ws : List Writing} {d₁ : Disk}
    (hadds : Disk.AddsFolders d d₁) (hfiles : ws.map Writing.file = p.files)
    (h : Written codecs o folder ws d₁ d') (hnodup : (ws.map Writing.place).Nodup) :
    Stores codecs o folder p d d' where
  file f hf := by
    rw [← hfiles] at hf
    obtain ⟨w, hw, rfl⟩ := List.mem_map.1 hf
    obtain ⟨name, encoding, hname, hencoding, hbytes, hl⟩ := h.isOf w hw
    have hat := Disk.found?_eq_file.1 (h.stored hnodup w hw)
    refine ⟨name, encoding, w.bytes, hname, hencoding, hbytes, ?_⟩
    simp only [Disk.bytes, Disk.find, hl, hat]
  other place hplace bytes := by
    have hmem : place ∉ ws.map Writing.place := by
      intro hmem
      obtain ⟨w, hw, rfl⟩ := List.mem_map.1 hmem
      obtain ⟨name, -, hname, -, -, hl⟩ := h.isOf w hw
      exact hplace w.file (hfiles ▸ List.mem_map_of_mem hw) name hname hl
    rw [← Disk.found?_eq_file, ← Disk.found?_eq_file, h.others place hmem,
      hadds.found?_eq_file_iff]
  path path place hl := h.grown.locate (hadds.toExtends.locate hl)

theorem refusal_ne_done (folder : Value) (f : Fault) (p : Project) :
    (refusal folder f).1 ≠ .ok (.done p) := by
  unfold refusal
  split
  · intro h
    cases h
  · intro h
    cases h

/-- What is written of a project without a fault. -/
theorem writeTo_written {folder : Value} {p : Project}
    (h : (writeTo o folder d p codecs).fault? = none) :
    ∃ t ws d₁, folder = .text t ∧ Disk.AddsFolders d d₁ ∧ ws.map Writing.file = p.files ∧
      Written codecs o (Path.ofText t) ws d₁ (writeTo o folder d p codecs).disk := by
  unfold writeTo at h ⊢
  split at h
  · next t =>
    have hadds := Disk.settleFolders_addsFolders (Path.ofText t).root (Path.ofText t).parts.reverse d
    simp only [write] at h ⊢
    split at h
    · cases h
    · next d₁ hsettled =>
      rw [hsettled] at hadds
      obtain ⟨ws, hfiles, hws⟩ := writeFiles_written codecs o (Path.ofText t) d₁ p.files h
      exact ⟨t, ws, d₁, rfl, hadds, hfiles, hws⟩
  · cases h

/-- An export that succeeds has rendered its subject and written the files into a folder that was
settled first. -/
theorem run_eq_done {folder : Value} {s : Subject} {p : Project} {log : List LogRecord}
    (h : run o folder d s codecs = (d', .ok (.done p), log)) :
    Project.ofSubject o s = .ok p ∧ ∃ t ws d₁, folder = .text t ∧ Disk.AddsFolders d d₁ ∧
      ws.map Writing.file = p.files ∧ Written codecs o (Path.ofText t) ws d₁ d' := by
  unfold run at h
  split at h
  · next f _ => exact absurd (congrArg (·.2.1) h) (refusal_ne_done folder f p)
  · next p' hp =>
    simp only at h
    split at h
    · next hfault =>
      simp only [Prod.mk.injEq, Except.ok.injEq, ExportOutcome.done.injEq] at h
      obtain ⟨rfl, rfl, -⟩ := h
      exact ⟨hp, writeTo_written hfault⟩
    · next f _ => exact absurd (congrArg (·.2.1) h) (refusal_ne_done folder f p)

/-- The files and the functions of a project under the symbols of its screens. -/
structure IsNamed (o : ExportOptions) (symbols : List Text) (p : Project) : Prop where
  files : p.files.map GeneratedFile.name =
    o.headerName :: symbols.map fun symbol => .text (Symbol.fileName symbol)
  distinct : (p.files.map GeneratedFile.name).Nodup
  /-- What follows the header defines one function each. -/
  functions : ∃ fs : List Definition, p.files.tail = fs.map (Definition.file o) ∧
    fs.map (Definition.function o) = symbols.map (· ++ o.functionSuffix)
  distinctFunctions : (symbols.map (· ++ o.functionSuffix)).Nodup

theorem isNamed_ofDrafts (o : ExportOptions) (library : Text) {ds : List Rendering.Draft}
    (hwords : ∀ symbol ∈ ds.map Rendering.Draft.symbol, symbol.IsWord)
    (hnodup : (ds.map Rendering.Draft.symbol).Nodup)
    (hheader : ∀ h, o.headerName = .text h → ¬ (".cpp" : Text) <:+ (Path.ofText h).name) :
    IsNamed o (ds.map Rendering.Draft.symbol) (Project.ofDrafts o library ds) := by
  have hfiles : (Project.ofDrafts o library ds).files.map GeneratedFile.name =
      o.headerName :: (ds.map Rendering.Draft.symbol).map fun symbol =>
        .text (Symbol.fileName symbol) := by
    rw [Project.ofDrafts, List.map_cons, List.map_map, List.map_map]
    rfl
  refine ⟨hfiles, ?_, ⟨ds.map Rendering.Draft.definition, ?_, ?_⟩, ?_⟩
  · rw [hfiles, List.nodup_cons]
    refine ⟨fun hmem => ?_, hnodup.map fun a b h => Symbol.fileName_injective (Value.text.inj h)⟩
    obtain ⟨symbol, hsymbol, hname⟩ := List.mem_map.1 hmem
    apply hheader _ hname.symm
    rw [ofText_fileName (hwords symbol hsymbol)]
    exact List.suffix_append symbol _
  · rw [Project.files_ofDrafts, List.tail_cons]
  · rw [List.map_map, List.map_map]
    rfl
  · exact hnodup.map fun a b h => List.append_cancel_right h

/-- **Screens keep apart.** Whatever the names of screens are, each gets the first of its symbols
that is free. If the last part of the header's name does not end as the files of screens do, the
files have distinct names and the functions too, and an export that succeeds, with any codecs,
leaves every file on the disk as it was generated and touches no other file. -/
theorem run_keepsApart (codecs : Codecs) (o : ExportOptions) {screens : List Screen}
    {names : List Text} (hnames : screens.map Screen.name = names.map Value.text)
    (hheader : ∀ h, o.headerName = .text h → ¬ (".cpp" : Text) <:+ (Path.ofText h).name) :
    ∃ symbols, Symbol.Assigned [] names symbols ∧
      (∀ p, Project.ofScreens o screens = .ok p → IsNamed o symbols p) ∧
      ∀ (folder : Text) (d d' : Disk) (p : Project) (log : List LogRecord),
        run o (.text folder) d (.list (screens.map .screen)) codecs = (d', .ok (.done p), log) →
        Project.ofScreens o screens = .ok p ∧ Stores codecs o (Path.ofText folder) p d d' := by
  have hnamed : ∀ s ∈ screens, ∃ t, s.name = .text t := by
    intro s hs
    have hmem : s.name ∈ names.map Value.text := hnames ▸ List.mem_map_of_mem hs
    obtain ⟨t, -, ht⟩ := List.mem_map.1 hmem
    exact ⟨t, ht.symm⟩
  obtain ⟨ds, hds⟩ := Rendering.exists_drafts_of_names o hnamed []
  have hassigned := Rendering.assigned_drafts o hnames hds
  have hproject : ∀ p, Project.ofScreens o screens = .ok p →
      IsNamed o (ds.map Rendering.Draft.symbol) p := by
    intro p hp
    obtain ⟨library, ds', -, -, hds', -, rfl⟩ := Project.ofScreens_eq_ok.1 hp
    have hsame : ds' = ds := List.map_injective_iff.2 (fun a b h => Except.ok.inj h)
      (hds'.symm.trans hds)
    subst hsame
    exact isNamed_ofDrafts o library hassigned.isWord hassigned.nodup hheader
  refine ⟨_, hassigned, hproject, fun folder d d' p log h => ?_⟩
  obtain ⟨hp, t, ws, d₁, hfolder, hadds, hfiles, hws⟩ := run_eq_done h
  cases hfolder
  rw [Project.ofSubject, Subject.screens_of_screens] at hp
  have hnamed := (hproject p hp).files
  rw [← hfiles, List.map_map] at hnamed
  obtain ⟨w, ws, rfl⟩ := List.exists_cons_of_ne_nil (l := ws) (by rintro rfl; cases hnamed)
  obtain ⟨hfirst, hscreens⟩ := List.cons.inj hnamed
  have hnodup := nodup_places (Path.isClean_ofText folder)
    hassigned.isWord hscreens hassigned.nodup
    (fun h hh => hheader h (hfirst.symm.trans hh)) hws
  exact ⟨hp, hws.stores hadds hfiles hnodup⟩

/-- The project that is written, if it is. -/
def project? : Disk × Except Fault ExportOutcome × List LogRecord → Option Project
  | (_, .ok (.done p), _) => some p
  | _ => none

theorem project?_eq_some {r : Disk × Except Fault ExportOutcome × List LogRecord} {p : Project}
    (h : project? r = some p) : ∃ d' log, r = (d', .ok (.done p), log) := by
  unfold project? at h
  split at h <;> cases h
  exact ⟨_, _, rfl⟩

/-- The first 256 code points, each in one byte. -/
def latin1 : Codec where
  encode t := t.mapM fun p =>
    if p.value < 0x100 then .ok (.ofNat p.value) else .error (.unencodable "latin-1" p)
  decode bytes := .ok (bytes.map fun b => .char (.ofNat b.toNat))

/-- Three screens whose symbols collide, in an encoding that is not one of the usual ones. -/
theorem run_keepsApart_colliding :
    let codecs : Codecs :=
      ⟨fun name => if name = "latin-1" then .ok latin1 else .error (.unknownEncoding name)⟩
    let o : ExportOptions := { encoding := .text "latin-1" }
    let w : Widget := { kind := .text "label", identifier := .text "l", text := .text "25°C" }
    let screens : List Screen := [⟨.text "a", []⟩, ⟨.text "a", [.node w []]⟩, ⟨.text "a_2", []⟩]
    screens.map Screen.name = ([("a" : Text), "a", "a_2"]).map Value.text ∧
      (¬ (".cpp" : Text) <:+ (Path.ofText "ui.h").name) ∧
      ∃ p d' log,
        run o (.text "out") {} (.list (screens.map .screen)) codecs = (d', .ok (.done p), log) ∧
        (p.files.map GeneratedFile.name).Nodup ∧ Stores codecs o (Path.ofText "out") p {} d' := by
  intro codecs o w screens
  have hnames : screens.map Screen.name = ([("a" : Text), "a", "a_2"]).map Value.text := rfl
  have hheader : ¬ (".cpp" : Text) <:+ (Path.ofText "ui.h").name := by decide
  have hdone : (project? (run o (.text "out") {} (.list (screens.map .screen)) codecs)).isSome =
      true := by
    simp only [codecs, o, w, screens]
    repeat rw [Text.ofString_ofList]
    decide +kernel
  obtain ⟨p, hp⟩ := Option.isSome_iff_exists.1 hdone
  obtain ⟨d', log, hrun⟩ := project?_eq_some hp
  obtain ⟨symbols, -, hnamed, hstores⟩ := run_keepsApart codecs o hnames fun h hh => by
    cases hh
    exact hheader
  obtain ⟨hp, hstored⟩ := hstores "out" {} d' p log hrun
  exact ⟨hnames, hheader, p, d', log, hrun, (hnamed p hp).distinct, hstored⟩

/-- A file is lost if the disk does not hold it as it was generated. -/
def isLost (folder : Path) (d : Disk) (f : GeneratedFile) : Bool :=
  match f.name with
  | .text name => (d.bytes (filePath folder name)).toOption !=
      (Disk.bytesOf Encoding.utf8.name f.code).toOption
  | _ => false

/-- A name that does not end as the files of screens do can still lead to one of them. -/
theorem run_overwrites :
    let o : ExportOptions := { headerName := .text "s.cpp/" }
    (¬ (".cpp" : Text) <:+ "s.cpp/") ∧
      ∃ p d' log, run o (.text "out") {} (.list [.screen ⟨.text "s", []⟩]) =
        (d', .ok (.done p), log) ∧ ¬ Stores .standard o (Path.ofText "out") p {} d' := by
  intro o
  refine ⟨by decide, ?_⟩
  have hdone : (project? (run o (.text "out") {} (.list [.screen ⟨.text "s", []⟩]))).any (fun p =>
      p.files.any (isLost (Path.ofText "out")
        (run o (.text "out") {} (.list [.screen ⟨.text "s", []⟩])).1)) = true := by
    decide +kernel
  obtain ⟨p, hp, hlost⟩ := (Option.any_eq_true _ _).1 hdone
  obtain ⟨d', log, hrun⟩ := project?_eq_some hp
  rw [hrun] at hlost
  refine ⟨p, d', log, hrun, fun hstores => ?_⟩
  obtain ⟨f, hf, hlost⟩ := List.any_eq_true.1 hlost
  obtain ⟨name, encoding, bytes, hname, hencoding, hbytes, hstored⟩ := hstores.file f hf
  cases hencoding
  rw [isLost, hname] at hlost
  simp only [hstored, hbytes] at hlost
  exact absurd hlost (by simp)

end Export

end LvglForest
