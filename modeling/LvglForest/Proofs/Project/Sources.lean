import LvglForest.Project.Import
import LvglForest.Proofs.Project.Scan

/-!
# Exact imports of projects

An import of a project scans its folder, takes the main files, or all files if there is no main
file, reads them once more, and gives the parsed files of those with widgets
(`SourceTree.IsImported`). For every tree that a disk can hold, the scan and the import are exact
(`Import.ofProject_exact`).
-/

namespace LvglForest

namespace SourceTree

/-- The parsed file of a file that can be read and has widgets. -/
def Parses (p : SourceTree) (names : List Text) (f : ParsedFile) : Prop := ∃ t, p.Reads names t ∧
  ParsedFile.parse (.texts p.choices.placeholders) (.text (p.path names)) t = .ok f ∧
    f.widgets ≠ []

/-- An exact import of the files at some of the places. -/
structure IsImported (p : SourceTree) (chosen : List (List Text)) (outcome : ImportOutcome) :
    Prop where
  done_iff : (∃ files, outcome = .done files) ↔
    (∃ names, p.IsMarked names) ∧ ∃ names ∈ chosen, ∃ f, p.Parses names f
  files_eq : ∀ files, outcome = .done files → ∃ imported : List (List Text),
    imported.Sublist chosen ∧
      (∀ names, names ∈ imported ↔ names ∈ chosen ∧ ∃ f, p.Parses names f) ∧
        List.Forall₂ p.Parses imported files

end SourceTree

/-! ## The import -/

namespace Import

theorem parsed?_eq_some {o : ImportOptions} {name : Value} {t : Text} {f : ParsedFile} :
    parsed? o name (.text t) = some f ↔
      ParsedFile.parse o.rootPlaceholders name t = .ok f ∧ f.widgets ≠ [] := by
  have hsource : (sourceText (.text t)).bind (ParsedFile.parse o.rootPlaceholders name) =
      ParsedFile.parse o.rootPlaceholders name t := rfl
  unfold parsed?
  rw [hsource]
  cases ParsedFile.parse o.rootPlaceholders name t with
  | error fault => exact iff_of_false (fun h => nomatch h) fun h => nomatch h.1
  | ok parsed =>
    simp only [Except.ok.injEq, List.isEmpty_iff]
    split
    · next hempty => exact iff_of_false (fun h => nomatch h) fun h => h.2 (h.1 ▸ hempty)
    · next hempty =>
      rw [Option.some.injEq]
      exact ⟨fun h => ⟨h, h ▸ hempty⟩, And.left⟩

/-- Files that cannot be read are left out, and do not end an import. -/
theorem readSources_fst {o : ImportOptions} {d : Disk} {encoding : Text}
    (hencoding : Encoding.nameOf o.encoding = .ok encoding) {paths : List Text}
    (h : ∀ path ∈ paths, ∀ f, d.read encoding path = .error f → f.isUnreadable = true) :
    (readSources o d (paths.map .text)).1 = .ok (paths.filterMap fun path =>
      (d.read encoding path).toOption.map fun t => (.text path, .text t)) := by
  induction paths with
  | nil => rfl
  | cons path paths ih =>
    rw [List.forall_mem_cons] at h
    have hbind : (Except.ok encoding).bind (d.read · path) = d.read encoding path := rfl
    rw [List.map_cons, readSources, hencoding, hbind]
    cases hread : d.read encoding path with
    | error f =>
      simp only [if_pos (h.1 f hread)]
      rw [ih h.2, List.filterMap_cons_none (by rw [hread]; rfl)]
    | ok t =>
      simp only [ih h.2]
      rw [List.filterMap_cons_some (by rw [hread]; rfl)]
      rfl

/-- What an import makes of the parsed files with widgets. -/
def outcomeOf : List ParsedFile → ImportOutcome
  | [] => .refused noWidgetsMessage
  | files => .done files

theorem outcomeOf_eq_done {files files' : List ParsedFile} :
    outcomeOf files = .done files' ↔ files = files' ∧ files ≠ [] := by
  cases files with
  | nil => exact iff_of_false (fun h => nomatch h) fun h => h.2 rfl
  | cons f files =>
    rw [outcomeOf, ImportOutcome.done.injEq, and_iff_left (List.cons_ne_nil f files)]
    exact List.cons_ne_nil f files

/-- An import of files gives the parsed files of those that can be read and have widgets. -/
theorem ofFiles_fst {o : ImportOptions} {d : Disk} {encoding : Text}
    (hencoding : Encoding.nameOf o.encoding = .ok encoding) {paths : List Text}
    (h : ∀ path ∈ paths, ∀ f, d.read encoding path = .error f → f.isUnreadable = true) :
    (ofFiles o d (paths.map .text)).1 = .ok (outcomeOf (paths.filterMap fun path =>
      (d.read encoding path).toOption.bind fun t => parsed? o (.text path) (.text t))) := by
  have hread := readSources_fst hencoding h
  unfold ofFiles
  split
  · next f log hfailed => rw [hfailed] at hread; cases hread
  · next sources log hsources =>
    rw [hsources] at hread
    cases hread
    unfold ofSources
    rw [List.filterMap_filterMap]
    simp only [Option.bind_map]
    rfl

/-- The import of a scanned project ends where the import of its files does. -/
theorem ofProject_fst {o : ImportOptions} {d : Disk} {path : Text} {s : Scan} {log : List LogRecord}
    {outcome : ImportOutcome} (hrun : Scan.run o d path = (.ok s, log))
    (hfiles : (ofFiles o d ((chosenFiles o s).map .text)).1 = .ok outcome) :
    (ofProject o d path).1 = if s.hasMarker o then outcome else .refused noCodeMessage := by
  have hscan : (ofScan o d s).1 =
      .ok (if s.hasMarker o then outcome else .refused noCodeMessage) := by
    unfold ofScan
    split
    · exact hfiles
    · rfl
  unfold ofProject
  simp only [hrun]
  split
  · next result log hresult =>
    rw [hresult] at hscan
    exact Except.ok.inj hscan
  · next f log hresult =>
    rw [hresult] at hscan
    cases hscan

end Import

/-- What a function gives for the members of a list stands in the order of those for which it gives
something. -/
theorem forall₂_filterMap {α β : Type} {g : α → Option β} {R : α → β → Prop} {xs : List α}
    (h : ∀ x ∈ xs, ∀ y, g x = some y → R x y) :
    List.Forall₂ R (xs.filter fun x => (g x).isSome) (xs.filterMap g) := by
  induction xs with
  | nil => exact .nil
  | cons x xs ih =>
    rw [List.forall_mem_cons] at h
    cases hx : g x with
    | none =>
      rw [List.filter_cons_of_neg (by simp [hx]), List.filterMap_cons_none hx]
      exact ih h.2
    | some y =>
      rw [List.filter_cons_of_pos (by simp [hx]), List.filterMap_cons_some hx]
      exact .cons (h.1 y hx) (ih h.2)

namespace SourceTree

/-- The places of the files that are imported. -/
def chosen (files mains : List (List Text)) : List (List Text) :=
  if mains = [] then files else mains

variable {d : Disk} {p : SourceTree}

/-- The parsed file of a file on a disk, if it has widgets. -/
def parsed? (p : SourceTree) (d : Disk) (names : List Text) : Option ParsedFile :=
  (d.read Encoding.utf8.name (p.path names)).toOption.bind fun t =>
    Import.parsed? p.choices.options (.text (p.path names)) (.text t)

theorem chosenFiles_eq {s : Scan} {files mains : List (List Text)}
    (h : p.IsScanned s files mains) :
    Import.chosenFiles p.choices.options s = (chosen files mains).map p.path := by
  unfold Import.chosenFiles chosen
  rw [h.files_eq, h.mainFiles_eq]
  cases mains <;> rfl

variable (hroot : d.find p.root = .ok (.folder p.entries))
  (htree : (DiskNode.folder p.entries).IsTree)
include hroot htree

theorem parsed?_eq_some {names : List Text} (h : p.IsListed names) {f : ParsedFile} :
    p.parsed? d names = some f ↔ p.Parses names f := by
  unfold parsed? Parses
  rw [Option.bind_eq_some_iff]
  refine exists_congr fun t => ?_
  rw [Import.parsed?_eq_some, ← read_path_iff hroot htree h]
  cases d.read Encoding.utf8.name (p.path names) with
  | error fault => exact iff_of_false (fun h => nomatch h.1) fun h => nomatch h.1
  | ok u =>
    rw [Except.ok.injEq]
    exact and_congr_left fun _ => Option.some.injEq u t ▸ Iff.rfl

/-- An import is exact if it makes an outcome of all the parsed files there are. -/
theorem isImported_of_outcome {chosen : List (List Text)} {hasMarker : Bool}
    {outcome : ImportOutcome} (hlisted : ∀ names ∈ chosen, p.IsListed names)
    (hmarker : hasMarker = true ↔ ∃ names, p.IsMarked names)
    (houtcome : outcome = if hasMarker then Import.outcomeOf (chosen.filterMap (p.parsed? d))
      else .refused Import.noCodeMessage) : p.IsImported chosen outcome := by
  have hparsed : ∀ names ∈ chosen, ∀ f, p.parsed? d names = some f ↔ p.Parses names f :=
    fun names h _ => parsed?_eq_some hroot htree (hlisted names h)
  have hdone : ∀ files, outcome = .done files ↔ hasMarker = true ∧
      chosen.filterMap (p.parsed? d) = files ∧ chosen.filterMap (p.parsed? d) ≠ [] := by
    intro files
    rw [houtcome]
    split
    · next h => rw [Import.outcomeOf_eq_done, h, and_iff_right rfl]
    · next h => exact iff_of_false (fun h => nomatch h) fun hfiles => h hfiles.1
  constructor
  · constructor
    · rintro ⟨files, hfiles⟩
      obtain ⟨hmarked, -, hne⟩ := (hdone files).1 hfiles
      obtain ⟨f, hf⟩ := List.exists_mem_of_ne_nil _ hne
      obtain ⟨names, hnames, hsome⟩ := List.mem_filterMap.1 hf
      exact ⟨hmarker.1 hmarked, names, hnames, f, (hparsed names hnames f).1 hsome⟩
    · rintro ⟨hmarked, names, hnames, f, hf⟩
      have hsome := (hparsed names hnames f).2 hf
      have hne := List.ne_nil_of_mem (List.mem_filterMap.2 ⟨names, hnames, hsome⟩)
      exact ⟨_, (hdone _).2 ⟨hmarker.2 hmarked, rfl, hne⟩⟩
  · intro files hfiles
    obtain ⟨-, rfl, -⟩ := (hdone files).1 hfiles
    refine ⟨chosen.filter fun names => (p.parsed? d names).isSome, List.filter_sublist,
      fun names => ?_, forall₂_filterMap fun names h f => (hparsed names h f).1⟩
    rw [List.mem_filter]
    refine and_congr_right fun hnames => ?_
    rw [Option.isSome_iff_exists]
    exact exists_congr fun f => hparsed names hnames f

/-- The import of a project is exact if its scan finds what is listed. -/
theorem isImported_of_isWalk {places : List (List Text)} (hwalk : IsWalk p.IsListed places)
    {log : List LogRecord} (hrun : Scan.run p.choices.options d p.root =
      (.ok { root := p.root, found := places.map (p.sourceFile d) }, log)) :
    p.IsImported (chosen places (p.mainPlaces d places))
      (Import.ofProject p.choices.options d p.root).1 := by
  have hscan := isScanned_of_isWalk hroot htree hwalk
  have hlisted : ∀ names ∈ chosen places (p.mainPlaces d places), p.IsListed names := by
    intro names h
    unfold chosen at h
    split at h
    · exact (hwalk.mem_iff names).1 h
    · exact (hwalk.mem_iff names).1 (hscan.sublist.subset h)
  have hread : ∀ path ∈ (chosen places (p.mainPlaces d places)).map p.path, ∀ f,
      d.read Encoding.utf8.name path = .error f → f.isUnreadable = true := by
    intro path hpath f hf
    obtain ⟨names, hnames, rfl⟩ := List.mem_map.1 hpath
    exact isUnreadable_of_read hroot htree (hlisted names hnames) hf
  have hfiles := Import.ofFiles_fst (o := p.choices.options) rfl hread
  rw [List.filterMap_map, ← chosenFiles_eq hscan] at hfiles
  exact isImported_of_outcome hroot htree hlisted hscan.hasMarker_iff
    (Import.ofProject_fst hrun hfiles)

end SourceTree

/-- **Scans and imports are exact.** For every tree that a disk can hold, and all choices, a scan
lists the source files in the order of a walk and tells those that can be read and hold a marker.
The import succeeds exactly if there are such files and one of the files it takes has widgets, and
it gives the parsed files of all that do. -/
theorem Import.ofProject_exact {d : Disk} {p : SourceTree}
    (hroot : d.entries p.root = .ok p.entries) (htree : (DiskNode.folder p.entries).IsTree) :
    ∃ s log files mains, Scan.run p.choices.options d p.root = (.ok s, log) ∧
      p.IsScanned s files mains ∧ p.IsImported (SourceTree.chosen files mains)
        (ofProject p.choices.options d p.root).1 := by
  have hfind : d.find p.root = .ok (.folder p.entries) := by
    unfold Disk.entries at hroot
    split at hroot
    · cases hroot
    · next entries hfound =>
      cases hroot
      exact hfound
    · cases hroot
  obtain ⟨places, log, hwalk, hrun⟩ := SourceTree.exists_run hfind htree
  exact ⟨_, log, places, _, hrun, SourceTree.isScanned_of_isWalk hfind htree hwalk,
    SourceTree.isImported_of_isWalk hfind htree hwalk hrun⟩

/-- A main file, a folder that is skipped, and a header that cannot be read in another folder. -/
theorem Import.ofProject_exact_nested :
    let p : SourceTree :=
      { choices := {}, root := "/"
        entries := [("b.cpp", .file [0x6C, 0x76, 0x67, 0x6C]), ("build", .folder [("c.c", .file [])]),
          ("a", .folder [("x.h", .file [0xFF])])] }
    let d : Disk := { top := .folder p.entries }
    d.entries p.root = .ok p.entries ∧ (DiskNode.folder p.entries).IsTree ∧
      ∃ s log files mains, Scan.run p.choices.options d p.root = (.ok s, log) ∧
        p.IsScanned s files mains ∧ p.IsImported (SourceTree.chosen files mains)
          (ofProject p.choices.options d p.root).1 ∧ [("b.cpp" : Text)] ∈ mains := by
  intro p d
  have hroot : d.entries p.root = .ok p.entries := rfl
  have hbuild : (DiskNode.folder [("c.c", .file [])]).IsTree :=
    DiskNode.isTree_folder (by decide)
      (List.forall_mem_singleton.2 ⟨by decide, DiskNode.isTree_file _⟩)
  have hheaders : (DiskNode.folder [("x.h", .file [0xFF])]).IsTree :=
    DiskNode.isTree_folder (by decide)
      (List.forall_mem_singleton.2 ⟨by decide, DiskNode.isTree_file _⟩)
  have htree : (DiskNode.folder p.entries).IsTree := by
    refine DiskNode.isTree_folder (by decide) (List.forall_mem_cons.2 ⟨?_, ?_⟩)
    · exact ⟨by decide, DiskNode.isTree_file _⟩
    · exact List.forall_mem_cons.2
        ⟨⟨by decide, hbuild⟩, List.forall_mem_singleton.2 ⟨by decide, hheaders⟩⟩
  have hmain : p.IsMain [("b.cpp" : Text)] := by
    have hsource : p.IsSource [("b.cpp" : Text)] :=
      { toIsReached := SourceTree.isReached_singleton (by decide)
        exists_bytes := ⟨[0x6C, 0x76, 0x67, 0x6C], rfl⟩
        extension_mem := by decide }
    have hreads : p.Reads [("b.cpp" : Text)] "lvgl" := ⟨_, rfl, by decide, rfl⟩
    exact ⟨⟨hsource, "lvgl", hreads, "lvgl", by decide, List.infix_rfl⟩, by decide⟩
  obtain ⟨s, log, files, mains, hrun, hscan, himport⟩ := ofProject_exact hroot htree
  exact ⟨hroot, htree, s, log, files, mains, hrun, hscan, himport,
    (hscan.mem_mains_iff [("b.cpp" : Text)]).2 hmain⟩

/-- A path of slashes leads to the top. -/
theorem Disk.find_slashes {d : Disk} {entries : List (Text × DiskNode)}
    (htop : d.top = .folder entries) {n : Nat} (hpos : 0 < n) (hshort : n ≤ pathLimit) :
    d.find (List.replicate n (.char '/')) = .ok (.folder entries) := by
  have hall : ∀ q ∈ List.replicate n (CodePoint.char '/'), q = .char '/' :=
    fun q => List.eq_of_mem_replicate
  have hne : List.replicate n (CodePoint.char '/') ≠ [] := by
    rw [ne_eq, List.replicate_eq_nil_iff]
    exact Nat.ne_of_gt hpos
  have hpath : IsPath (List.replicate n (.char '/')) := by
    refine isPath_iff.2 ⟨fun q hq => ?_, hne, ?_⟩
    · rw [hall q hq]
      decide
    · rw [isTooLong, Utf8.length_encode?_of_ascii fun q hq => by rw [hall q hq]; decide,
        List.length_replicate]
      exact decide_eq_false (Nat.not_lt.2 hshort)
  have hroute : route (List.replicate n (.char '/')) = [("." : Text)] := by
    have hparts := Text.filter_splitOn_append hall []
    rw [List.append_nil] at hparts
    have hlast : (List.replicate n (CodePoint.char '/')).getLast? = some (.char '/') := by
      rw [List.getLast?_replicate, if_neg (Nat.ne_of_gt hpos)]
    unfold route
    simp only [hparts, hlast]
    rfl
  have hhead : (List.replicate n (CodePoint.char '/')).head? = some (.char '/') := by
    rw [List.head?_replicate, if_neg (Nat.ne_of_gt hpos)]
  have htop : d.at? [] = some (.folder entries) := congrArg some htop
  refine find_eq_ok.2 ⟨[], locate_eq_ok.2 ⟨hpath, ?_⟩, htop⟩
  rw [hhead, if_pos rfl, hroute, follow, htop]
  exact if_pos rfl

/-- A source file is not listed if the path of its folder is too long. -/
theorem Scan.run_misses :
    let p : SourceTree :=
      { choices := {}, root := List.replicate 4090 (.char '/')
        entries := [("screens", .folder [("a.cpp", .file [0x6C, 0x76, 0x67, 0x6C])])] }
    let d : Disk := { top := .folder p.entries }
    let names : List Text := [("screens" : Text), "a.cpp"]
    d.entries p.root = .ok p.entries ∧ (DiskNode.folder p.entries).IsTree ∧
      (∃ bytes, p.at? names = some (.file bytes)) ∧
      SourceTree.extension names ∈ p.choices.sourceExtensions ∧
      (∀ name ∈ names.dropLast, name ∉ p.choices.skipFolders) ∧
      ∃ s log, run p.choices.options d p.root = (.ok s, log) ∧ p.path names ∉ s.files := by
  intro p d names
  have hfind : d.find p.root = .ok (.folder p.entries) :=
    Disk.find_slashes rfl (by decide) (by decide)
  have hroot : d.entries p.root = .ok p.entries := by
    rw [Disk.entries, hfind]
  have hscreens : (DiskNode.folder [("a.cpp", .file [0x6C, 0x76, 0x67, 0x6C])]).IsTree :=
    DiskNode.isTree_folder (by decide)
      (List.forall_mem_singleton.2 ⟨by decide, DiskNode.isTree_file _⟩)
  have htree : (DiskNode.folder p.entries).IsTree :=
    DiskNode.isTree_folder (by decide) (List.forall_mem_singleton.2 ⟨by decide, hscreens⟩)
  have hlong : Disk.isTooLong (entryPath p.root "screens") = true := by
    have hslashes : ∀ q ∈ p.root, q.value < 0x80 := by
      intro q hq
      rw [List.eq_of_mem_replicate hq]
      decide
    have hname : ∀ q ∈ ("screens" : Text), q.value < 0x80 := by decide
    have hlast : p.root.getLast? = some (.char '/') := by
      rw [List.getLast?_replicate, if_neg (by decide)]
    have hpath : entryPath p.root "screens" = p.root ++ "screens" := by
      rw [entryPath, if_pos (.inr hlast)]
    rw [hpath, Disk.isTooLong,
      Utf8.length_encode?_of_ascii (List.forall_mem_append.2 ⟨hslashes, hname⟩),
      List.length_append, List.length_replicate]
    decide
  have hfound : byName (ofEntries p.choices.options p.root p.entries) = [] := by
    have hentry : ofEntry p.choices.options p.root "screens"
        (.folder [("a.cpp", .file [0x6C, 0x76, 0x67, 0x6C])]) = [] := by
      rw [ofEntry, if_pos hlong, ofFile_options]
      exact if_neg (by decide)
    rw [ofEntries_eq_map, List.map_singleton, hentry, byName, List.mergeSort_singleton]
    rfl
  refine ⟨hroot, htree, ⟨_, rfl⟩, by decide, by decide, { root := p.root, found := [] }, [],
    run_of_review hroot hfound rfl, List.not_mem_nil⟩

end LvglForest
