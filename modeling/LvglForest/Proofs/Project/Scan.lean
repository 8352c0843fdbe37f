import LvglForest.Proofs.Disk.Encoding
import LvglForest.Proofs.Project.Walk
import LvglForest.Proofs.Text.Infix

/-!
# Exact scans

A scan of a tree that a disk can hold lists the source files in the order of a walk, and says which
of those that can be read hold a marker (`SourceTree.IsScanned`). What it comes upon it reads from
the disk, by the path of the place (`SourceTree.read_path_iff`), so that files that cannot be read
never end it (`SourceTree.exists_run`).

Something gets lost where a path has too many bytes for the disk: a folder with such a path is not
entered, and a file is not read.
-/

namespace LvglForest

namespace SourceTree

section Place

variable (p : SourceTree) (names : List Text)

/-- The place of a source file. -/
structure IsSource : Prop extends p.IsReached names where
  exists_bytes : ∃ bytes, p.at? names = some (.file bytes)
  extension_mem : extension names ∈ p.choices.sourceExtensions

/-- The text that is read from a file. -/
def Reads (t : Text) : Prop := ∃ bytes, p.at? names = some (.file bytes) ∧
  Disk.isTooLong (p.path names) = false ∧ Disk.textOf Encoding.utf8.name bytes = .ok t

/-- The place of a source file that can be read and holds a marker. -/
def IsMarked : Prop :=
  p.IsSource names ∧ ∃ t, p.Reads names t ∧ ∃ marker ∈ p.choices.markers, marker <:+: t

/-- The place of a main file. -/
def IsMain : Prop := p.IsMarked names ∧ extension names ∈ p.choices.mainExtensions

end Place

/-- An exact scan, with the places of the files and of the main files. It is left open whether a
folder whose own path is too long is among the files. -/
structure IsScanned (p : SourceTree) (s : Scan) (files mains : List (List Text)) : Prop where
  root_eq : s.root = p.root
  files_eq : s.files = files.map p.path
  ordered : files.Pairwise Precedes
  mem_files : ∀ names, p.IsSource names → names ∈ files
  of_mem_files : ∀ names ∈ files, p.IsSource names ∨
    (∃ entries, p.at? names = some (.folder entries)) ∧ Disk.isTooLong (p.path names) = true
  mainFiles_eq : s.mainFiles p.choices.options = mains.map p.path
  sublist : mains.Sublist files
  mem_mains_iff : ∀ names, names ∈ mains ↔ p.IsMain names
  hasMarker_iff : s.hasMarker p.choices.options = true ↔ ∃ names, p.IsMarked names

/-! ## Reading what is listed -/

section Read

variable {d : Disk} {p : SourceTree} {names : List Text}

/-- The path of a place that is reached leads there, unless it is too long. -/
theorem find_path (hroot : d.find p.root = .ok (.folder p.entries))
    (htree : (DiskNode.folder p.entries).IsTree) {node : DiskNode}
    (hat : p.at? names = some node) (hreached : p.IsReached names) :
    d.find (p.path names) =
      if Disk.isTooLong (p.path names) then .error (.disk .nameTooLong (p.path names))
      else .ok node := by
  have hshort := (Disk.isPath_of_find hroot).short
  induction names generalizing p with
  | nil =>
    cases hat
    rw [path, List.foldl_nil, hshort, if_neg Bool.false_ne_true, hroot]
  | cons name names ih =>
    obtain ⟨child, hmem, hchild⟩ := DiskNode.exists_mem_of_at? hat
    have hfind := Disk.find_entryPath hroot (htree.isEntryName_of_mem hmem)
      (Table.get?_of_mem htree.nodup_keys hmem)
    by_cases hnames : names = []
    · subst hnames
      cases hchild
      exact hfind
    · cases child with
      | file bytes =>
        obtain ⟨first, rest, rfl⟩ := List.exists_cons_of_ne_nil hnames
        cases hchild
      | folder entries =>
        have hbelow := ((isReached_cons hshort hnames entries).1 hreached).2
        have hfolder : Disk.isTooLong (Scan.entryPath p.root name) = false :=
          hbelow.short [] List.nil_prefix
        rw [if_neg (by rw [hfolder]; exact Bool.false_ne_true)] at hfind
        exact ih (p := p.below name entries) hfind (htree.of_mem hmem) hchild hbelow hfolder

variable (hroot : d.find p.root = .ok (.folder p.entries))
  (htree : (DiskNode.folder p.entries).IsTree)
include hroot htree

/-- What a disk reads at a place that is listed is what the file there holds. -/
theorem read_path_iff (h : p.IsListed names) {t : Text} :
    d.read Encoding.utf8.name (p.path names) = .ok t ↔ p.Reads names t := by
  obtain ⟨node, hat, hlong⟩ := h.exists_node
  have hfind := find_path hroot htree hat h.toIsReached
  constructor
  · intro hread
    split at hfind
    · rw [Disk.read_of_find_error hfind] at hread
      cases hread
    · next hshort =>
      cases node with
      | file bytes =>
        rw [Disk.read_of_find_file hfind] at hread
        exact ⟨bytes, hat, Bool.not_eq_true _ ▸ hshort, hread⟩
      | folder entries => exact absurd (hlong entries rfl) hshort
  · rintro ⟨bytes, hfile, hshort, ht⟩
    cases hat.symm.trans hfile
    rw [hshort, if_neg Bool.false_ne_true] at hfind
    rw [Disk.read_of_find_file hfind, ht]

/-- A file that is listed and cannot be read is passed over. -/
theorem isUnreadable_of_read (h : p.IsListed names) {f : Fault}
    (hread : d.read Encoding.utf8.name (p.path names) = .error f) : f.isUnreadable = true := by
  obtain ⟨node, hat, hlong⟩ := h.exists_node
  have hfind := find_path hroot htree hat h.toIsReached
  split at hfind
  · rw [Disk.read_of_find_error hfind] at hread
    cases hread
    rfl
  · next hshort =>
    cases node with
    | file bytes =>
      rw [Disk.read_of_find_file hfind, Disk.textOf, Encoding.get_standard] at hread
      simp only [Encoding.codec, Encoding.decode] at hread
      split at hread
      · cases hread
      · cases hread
        rfl
    | folder entries => exact absurd (hlong entries rfl) hshort

end Read

end SourceTree

/-! ## Marks of a file -/

theorem Value.holdsAny_texts (t : Text) (us : List Text) :
    (Value.text t).holdsAny (us.map .text) = .ok (us.any (Text.hasInfix · t)) := by
  induction us with
  | nil => rfl
  | cons u us ih =>
    have hholds : (Value.text t).holds (.text u) = .ok (Text.hasInfix u t) := rfl
    rw [List.map_cons, holdsAny, hholds, List.any_cons]
    cases Text.hasInfix u t with
    | false => exact ih
    | true => rfl

namespace SourceTree

variable {d : Disk} {p : SourceTree} {names : List Text}

/-- Whether a file holds a marker is asked of what is read from it. -/
theorem marked?_sourceFile : (p.sourceFile d names).marked? p.choices.options =
    (d.read Encoding.utf8.name (p.path names)).map
      fun t => p.choices.markers.any (Text.hasInfix · t) := by
  unfold SourceFile.marked?
  change ((d.read Encoding.utf8.name (p.path names)).bind fun t =>
    Value.holdsAny (.text t) (p.choices.markers.map .text)) = _
  cases d.read Encoding.utf8.name (p.path names) with
  | error f => rfl
  | ok t => exact Value.holdsAny_texts t p.choices.markers

theorem main?_sourceFile : (p.sourceFile d names).main? p.choices.options =
    (d.read Encoding.utf8.name (p.path names)).map fun t =>
      p.choices.markers.any (Text.hasInfix · t) &&
        decide (extension names ∈ p.choices.mainExtensions) := by
  unfold SourceFile.main?
  rw [marked?_sourceFile]
  cases d.read Encoding.utf8.name (p.path names) with
  | error f => rfl
  | ok t =>
    change (if p.choices.markers.any (Text.hasInfix · t) = true then
      (Value.texts p.choices.mainExtensions).holds (.text (extension names)) else .ok false) =
        Except.ok _
    rw [Value.holds_texts]
    change _ = Except.ok (p.choices.markers.any (Text.hasInfix · t) && _)
    cases p.choices.markers.any (Text.hasInfix · t) <;> rfl

theorem isMarked_sourceFile : (p.sourceFile d names).isMarked p.choices.options = true ↔
    ∃ t, d.read Encoding.utf8.name (p.path names) = .ok t ∧
      ∃ marker ∈ p.choices.markers, marker <:+: t := by
  unfold SourceFile.isMarked
  rw [marked?_sourceFile]
  cases d.read Encoding.utf8.name (p.path names) with
  | error f => exact iff_of_false Bool.false_ne_true fun ⟨t, h, _⟩ => nomatch h
  | ok t =>
    change p.choices.markers.any (Text.hasInfix · t) = true ↔ _
    rw [List.any_eq_true]
    simp only [Text.hasInfix_iff, Except.ok.injEq, exists_eq_left']

theorem isMain_sourceFile : (p.sourceFile d names).isMain p.choices.options = true ↔
    (p.sourceFile d names).isMarked p.choices.options = true ∧
      extension names ∈ p.choices.mainExtensions := by
  unfold SourceFile.isMain SourceFile.isMarked
  rw [main?_sourceFile, marked?_sourceFile]
  cases d.read Encoding.utf8.name (p.path names) with
  | error f => exact iff_of_false Bool.false_ne_true fun h => Bool.false_ne_true h.1
  | ok t =>
    change (_ && _) = true ↔ _
    rw [Bool.and_eq_true, decide_eq_true_eq]
    rfl

end SourceTree

/-! ## The scan -/

/-- Files that cannot be read do not end a scan. -/
theorem Scan.review_fst {o : ImportOptions} {found : List SourceFile}
    (h : ∀ f ∈ found, ∀ fault, f.main? o = .error fault → fault.isUnreadable = true) :
    (review o found).1 = none := by
  induction found with
  | nil => rfl
  | cons f found ih =>
    rw [List.forall_mem_cons] at h
    rw [review]
    split
    · exact ih h.2
    · next fault hfault =>
      rw [if_pos (h.1 fault hfault)]
      exact ih h.2

theorem Scan.run_of_review {o : ImportOptions} {d : Disk} {path : Text}
    {entries : List (Text × DiskNode)} {found : List SourceFile} {log : List LogRecord}
    (hentries : d.entries path = .ok entries) (hfound : byName (ofEntries o path entries) = found)
    (hreview : review o found = (none, log)) :
    run o d path = (.ok { root := path, found }, log) := by
  unfold run
  simp only [hentries, hfound, hreview]

namespace SourceTree

variable {d : Disk} {p : SourceTree}

section Listed

variable {names : List Text}

theorem IsSource.isListed (h : p.IsSource names) : p.IsListed names := by
  obtain ⟨bytes, hbytes⟩ := h.exists_bytes
  exact ⟨h.toIsReached, ⟨_, hbytes, fun entries heq => nomatch heq⟩, h.extension_mem⟩

/-- What is listed is a source file, or a folder that is taken for one. -/
theorem IsListed.cases (h : p.IsListed names) : p.IsSource names ∨
    (∃ entries, p.at? names = some (.folder entries)) ∧ Disk.isTooLong (p.path names) = true := by
  obtain ⟨node, hnode, hlong⟩ := h.exists_node
  cases node with
  | file bytes => exact .inl ⟨h.toIsReached, ⟨bytes, hnode⟩, h.extension_mem⟩
  | folder entries => exact .inr ⟨⟨entries, hnode⟩, hlong entries rfl⟩

/-- Only files are read. -/
theorem IsListed.isSource (h : p.IsListed names) {t : Text} (ht : p.Reads names t) :
    p.IsSource names := by
  obtain ⟨bytes, hbytes, -⟩ := ht
  exact ⟨h.toIsReached, ⟨bytes, hbytes⟩, h.extension_mem⟩

end Listed

variable (hroot : d.find p.root = .ok (.folder p.entries))
  (htree : (DiskNode.folder p.entries).IsTree)
include hroot htree

theorem isMarked_iff {names : List Text} (h : p.IsListed names) :
    (p.sourceFile d names).isMarked p.choices.options = true ↔ p.IsMarked names := by
  rw [isMarked_sourceFile]
  constructor
  · rintro ⟨t, hread, hmarker⟩
    have ht := (read_path_iff hroot htree h).1 hread
    exact ⟨h.isSource ht, t, ht, hmarker⟩
  · rintro ⟨-, t, ht, hmarker⟩
    exact ⟨t, (read_path_iff hroot htree h).2 ht, hmarker⟩

/-- A scan of a tree finds what is listed, in the order of a walk. -/
theorem exists_run : ∃ places log, IsWalk p.IsListed places ∧
    Scan.run p.choices.options d p.root =
      (.ok { root := p.root, found := places.map (p.sourceFile d) }, log) := by
  obtain ⟨places, hfound, hwalk⟩ := exists_walk hroot htree
  have hreview : (Scan.review p.choices.options (places.map (p.sourceFile d))).1 = none := by
    refine Scan.review_fst fun f hf fault hfault => ?_
    obtain ⟨names, hnames, rfl⟩ := List.mem_map.1 hf
    rw [main?_sourceFile] at hfault
    cases hread : d.read Encoding.utf8.name (p.path names) with
    | ok t => rw [hread] at hfault; cases hfault
    | error f =>
      rw [hread] at hfault
      cases hfault
      exact isUnreadable_of_read hroot htree ((hwalk.mem_iff names).1 hnames) hread
  have hentries : d.entries p.root = .ok p.entries := by
    unfold Disk.entries
    rw [hroot]
  obtain ⟨log, hlog⟩ : ∃ log, Scan.review p.choices.options (places.map (p.sourceFile d)) =
      (none, log) := ⟨_, Prod.ext hreview rfl⟩
  exact ⟨places, log, hwalk, Scan.run_of_review hentries hfound hlog⟩

/-- The main files among the places of a walk. -/
def mainPlaces (p : SourceTree) (d : Disk) (places : List (List Text)) : List (List Text) :=
  places.filter fun names => (p.sourceFile d names).isMain p.choices.options

/-- **A scan is exact** if it finds what is listed, in the order of a walk. -/
theorem isScanned_of_isWalk {places : List (List Text)} (hwalk : IsWalk p.IsListed places) :
    p.IsScanned { root := p.root, found := places.map (p.sourceFile d) } places
      (p.mainPlaces d places) where
  root_eq := rfl
  files_eq := List.map_map
  ordered := hwalk.ordered
  mem_files names h := (hwalk.mem_iff names).2 h.isListed
  of_mem_files names h := ((hwalk.mem_iff names).1 h).cases
  mainFiles_eq := by
    unfold Scan.mainFiles mainPlaces
    rw [List.filter_map, List.map_map]
    rfl
  sublist := List.filter_sublist
  mem_mains_iff names := by
    rw [mainPlaces, List.mem_filter, isMain_sourceFile, hwalk.mem_iff]
    constructor
    · rintro ⟨h, hmarked, hext⟩
      exact ⟨(isMarked_iff hroot htree h).1 hmarked, hext⟩
    · rintro ⟨hmarked, hext⟩
      have h := hmarked.1.isListed
      exact ⟨h, (isMarked_iff hroot htree h).2 hmarked, hext⟩
  hasMarker_iff := by
    unfold Scan.hasMarker
    rw [List.any_map, List.any_eq_true]
    refine exists_congr fun names => ?_
    rw [hwalk.mem_iff]
    constructor
    · rintro ⟨h, hmarked⟩
      exact (isMarked_iff hroot htree h).1 hmarked
    · intro hmarked
      have h := hmarked.1.isListed
      exact ⟨h, (isMarked_iff hroot htree h).2 hmarked⟩

end SourceTree

end LvglForest
