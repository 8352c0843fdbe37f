import LvglForest.Proofs.Disk.Confinement
import LvglForest.Proofs.Project.Export

/-!
# Exports stay in their folder

Whatever screens are called, the files of a project have names that are one part of a path
(`Export.exists_outputName`), so an export writes into the folder that it is given and nowhere else,
and makes no other folders than this one with those above it. This holds of an export that fails
half-way as well (`Export.run_confined`).
-/

namespace LvglForest

namespace Export

variable {codecs : Codecs} {o : ExportOptions} {folder : Path} {header : Text} {d d₁ d' : Disk}

/-! ## Names -/

/-- The name of the header, or a word with the suffix of the files of screens. -/
def IsOutputName (header name : Text) : Prop :=
  name = header ∨ ∃ symbol : Text, symbol.IsWord ∧ name = Symbol.fileName symbol

/-- A name that is one part of a path is no way out of a folder. -/
theorem ofText_outputName {name : Text} (hheader : Path.ofText header = ⟨[], [header]⟩)
    (h : IsOutputName header name) : Path.ofText name = ⟨[], [name]⟩ := by
  rcases h with rfl | ⟨symbol, hsymbol, rfl⟩
  · exact hheader
  · exact ofText_fileName hsymbol

/-- Generated files have such names, whatever the screens are called. -/
theorem exists_outputName {s : Subject} {p : Project} (hheader : o.headerName = .text header)
    (hp : Project.ofSubject o s = .ok p) :
    ∀ f ∈ p.files, ∃ name, f.name = .text name ∧ IsOutputName header name := by
  unfold Project.ofSubject at hp
  split at hp
  · cases hp
  · next screens hscreens =>
    obtain ⟨library, ds, -, -, hdrafts, -, rfl⟩ := Project.ofScreens_eq_ok.1 hp
    have hof := (Rendering.drafts_eq_ok o hdrafts).1
    refine List.forall_mem_cons.2 ⟨⟨header, hheader, .inl rfl⟩, fun f hf => ?_⟩
    obtain ⟨draft, hdraft, rfl⟩ := List.mem_map.1 hf
    obtain ⟨i, hi, rfl⟩ := List.getElem_of_mem hdraft
    have hword := (hof.get (hof.length_eq ▸ hi) hi).symbol
    exact ⟨_, rfl, .inr ⟨_, hword, rfl⟩⟩

/-! ## Writing -/

/-- Files are written in the folder of the project only, up to the first fault. -/
theorem writeFiles_changesFiles (codecs : Codecs) (hfolder : folder.IsClean)
    (hheader : Path.ofText header = ⟨[], [header]⟩) {dir : List Text}
    (hdir : d.locate folder.toText = .ok dir) {files : List GeneratedFile}
    (hfiles : ∀ f ∈ files, ∃ name, f.name = .text name ∧ IsOutputName header name) :
    Disk.ChangesFiles (fun place => ∃ name, place = dir ++ [name] ∧ IsOutputName header name) d
      (writeFiles o folder d files codecs).disk := by
  induction files generalizing d with
  | nil => exact .refl _ d
  | cons f files ih =>
    rw [List.forall_mem_cons] at hfiles
    obtain ⟨⟨name, hname, houtput⟩, hfiles⟩ := hfiles
    rw [writeFiles, place, hname]
    simp only
    cases Encoding.nameOf o.encoding with
    | error fault => exact .refl _ d
    | ok encoding =>
      have hwrite := Disk.write_changesFiles d encoding (filePath folder name) f.code codecs
      have hwritten := hwrite.mono
        (Q := fun place => ∃ name, place = dir ++ [name] ∧ IsOutputName header name) (by
          rintro place ⟨hl, hfile⟩
          obtain ⟨dir', hdir', hplace⟩ :=
            place_filePath hfolder (ofText_outputName hheader houtput) hl hfile
          rw [Disk.follow_parts_of_locate hfolder hdir, Except.ok.injEq] at hdir'
          exact ⟨name, hdir' ▸ hplace, houtput⟩)
      simp only [Except.map]
      split
      · next d₁ fault hwrite =>
        rw [hwrite] at hwritten
        exact hwritten
      · next d₁ hwrite =>
        rw [hwrite] at hwritten
        -- No folder goes away, so the other files are written in the same folder.
        exact hwritten.trans (ih (hwritten.toExtends.locate hdir) hfiles)

/-- **A disk changes inside one folder only.** The folder is made with those above it that are
missing, and files directly inside it are made or replaced, each with the name of an output. -/
structure Confined (header : Text) (folder : Path) (d d' : Disk) : Prop where
  working : d'.working = d.working
  changed : ∀ place, d'.found? place ≠ d.found? place →
    (d.found? place = none ∧ d'.found? place = some .folder ∧
      ∃ path, Disk.BeginsPath folder.root folder.parts path ∧ d'.locate path = .ok place) ∨
    (d.found? place ≠ some .folder ∧ (∃ bytes, d'.found? place = some (.file bytes)) ∧
      ∃ dir name, d'.locate folder.toText = .ok dir ∧ place = dir ++ [name] ∧
        IsOutputName header name)

theorem Confined.refl (header : Text) (folder : Path) (d : Disk) : Confined header folder d d :=
  ⟨rfl, fun _ h => absurd rfl h⟩

/-- Folders that are made on the way to a folder. -/
theorem confined_of_makesFolders
    (h : Disk.MakesFolders (Disk.BeginsPath folder.root folder.parts) d d') :
    Confined header folder d d' where
  working := h.adds.working
  changed place hplace := by
    have hold : d.found? place = none := by
      by_contra hsome
      obtain ⟨e, he⟩ := Option.ne_none_iff_exists'.1 hsome
      exact hplace ((h.adds.kept place e he).trans he.symm)
    rw [hold] at hplace
    obtain ⟨e, he⟩ := Option.ne_none_iff_exists'.1 hplace
    have hfolder := h.adds.new place hold e he
    exact .inl ⟨hold, he.trans (congrArg some hfolder), h.led place hold hplace⟩

/-- Files that are then written in the folder. -/
theorem Confined.trans_changesFiles (h : Confined header folder d d₁) (hgrown : Disk.Extends d d₁)
    {dir : List Text} (hdir : d₁.locate folder.toText = .ok dir)
    (hchanges : Disk.ChangesFiles
      (fun place => ∃ name, place = dir ++ [name] ∧ IsOutputName header name) d₁ d') :
    Confined header folder d d' where
  working := hchanges.working.trans h.working
  changed place hplace := by
    have hleads : ∀ {path place}, d₁.locate path = .ok place → d'.locate path = .ok place :=
      hchanges.toExtends.locate
    by_cases hlast : d'.found? place = d₁.found? place
    · rw [hlast] at hplace ⊢
      refine (h.changed place hplace).imp ?_ ?_
      · rintro ⟨hold, hnew, path, hpath, hl⟩
        exact ⟨hold, hnew, path, hpath, hleads hl⟩
      · rintro ⟨hold, hfile, dir, name, hl, hname⟩
        exact ⟨hold, hfile, dir, name, hleads hl, hname⟩
    -- Where a file is written now there was no folder before the folders were made either.
    · obtain ⟨⟨name, rfl, houtput⟩, hfolder, hfile⟩ := hchanges.changed place hlast
      exact .inr ⟨fun hold => hfolder (hgrown.folders _ hold), hfile, dir, name, hleads hdir, rfl,
        houtput⟩

/-- A project is written into the folder at a path, whether this succeeds or not. -/
theorem write_confined (hheader : Path.ofText header = ⟨[], [header]⟩) (t : Text) {p : Project}
    (hfiles : ∀ f ∈ p.files, ∃ name, f.name = .text name ∧ IsOutputName header name) :
    Confined header (Path.ofText t) d (write o t d p codecs).disk := by
  obtain ⟨hmakes, hleads⟩ :=
    Disk.settled_settleFolders (Path.ofText t).root (Path.ofText t).parts.reverse d
  rw [List.reverse_reverse] at hmakes hleads
  unfold write
  simp only
  split
  · next d₁ fault hsettled =>
    rw [hsettled] at hmakes
    exact confined_of_makesFolders hmakes
  · next d₁ hsettled =>
    rw [hsettled] at hmakes hleads
    obtain ⟨dir, hdir⟩ := hleads rfl
    exact (confined_of_makesFolders hmakes).trans_changesFiles hmakes.adds.toExtends hdir
      (writeFiles_changesFiles codecs (Path.isClean_ofText t) hheader hdir hfiles)

/-- The disk after an export is the one that the project was written to. -/
theorem disk_run (folder : Value) (d : Disk) {s : Subject} {p : Project}
    (hp : Project.ofSubject o s = .ok p) :
    (run o folder d s codecs).1 = (writeTo o folder d p codecs).disk := by
  unfold run
  rw [hp]
  simp only
  split <;> rfl

/-- **An export changes the disk inside its folder only**, whatever the screens are called, and
whether it succeeds or not. It changes nothing if the folder is no text. -/
theorem run_confined (codecs : Codecs) (hname : o.headerName = .text header)
    (hheader : Path.ofText header = ⟨[], [header]⟩) (folder : Value) (d : Disk) (s : Subject) :
    (run o folder d s codecs).1 = d ∨
      ∃ t, folder = .text t ∧ Confined header (Path.ofText t) d (run o folder d s codecs).1 := by
  cases hp : Project.ofSubject o s with
  | error f =>
    left
    unfold run
    rw [hp]
  | ok p =>
    rw [disk_run folder d hp]
    unfold writeTo
    split
    · next t => exact .inr ⟨t, rfl, write_confined hheader t (exists_outputName hname hp)⟩
    · exact .inl rfl

end Export

end LvglForest
