import LvglForest.Proofs.Disk.Below

/-!
# The walk of a scan

A walk through a folder takes the entries of every folder by name. What it lists is told by the
names that lead there: something lies at the place, no folder on the way is passed over, and the
last name has the extension of a source file (`SourceTree.IsListed`). Every such place is listed
once, and two places come in the order of the names where the ways to them part
(`SourceTree.exists_walk`).
-/

namespace LvglForest

/-! ## The order of names -/

theorem CodePoint.value_injective : Function.Injective value := by
  intro a b h
  cases a with
  | char a =>
    have ha : a.toNat < 0xD800 ∨ 0xDFFF < a.toNat := a.valid.imp id And.left
    cases b with
    | char b => exact congrArg char (Char.toNat_inj.1 h)
    | surrogate n =>
      change a.toNat = 0xD800 + n.val at h
      omega
  | surrogate m =>
    cases b with
    | char b =>
      have hb : b.toNat < 0xD800 ∨ 0xDFFF < b.toNat := b.valid.imp id And.left
      change 0xD800 + m.val = b.toNat at h
      omega
    | surrogate n => exact congrArg surrogate (Fin.ext (Nat.add_left_cancel h))

namespace Text

theorem le_cons {a b : CodePoint} {s t : Text} : le (a :: s) (b :: t) = true ↔
    a.value < b.value ∨ a = b ∧ le s t = true := by
  rw [le, Bool.or_eq_true, Bool.and_eq_true, decide_eq_true_eq, beq_iff_eq,
    CodePoint.value_injective.eq_iff]

theorem le_trans {s t u : Text} (hst : le s t = true) (htu : le t u = true) : le s u = true := by
  induction s generalizing t u with
  | nil => rw [le]
  | cons a s ih =>
    cases t with
    | nil => cases hst
    | cons b t =>
      cases u with
      | nil => cases htu
      | cons c u =>
        rw [le_cons] at hst htu ⊢
        rcases hst with hab | ⟨rfl, hst⟩
        · rcases htu with hbc | ⟨rfl, -⟩
          · exact .inl (Nat.lt_trans hab hbc)
          · exact .inl hab
        · rcases htu with hbc | ⟨rfl, htu⟩
          · exact .inl hbc
          · exact .inr ⟨rfl, ih hst htu⟩

theorem le_total (s t : Text) : (le s t || le t s) = true := by
  rw [Bool.or_eq_true]
  induction s generalizing t with
  | nil => exact .inl rfl
  | cons a s ih =>
    cases t with
    | nil => exact .inr rfl
    | cons b t =>
      rw [le_cons, le_cons]
      rcases Nat.lt_trichotomy a.value b.value with h | h | h
      · exact .inl (.inl h)
      · have hab := CodePoint.value_injective h
        exact (ih t).imp (fun hst => .inr ⟨hab, hst⟩) fun hts => .inr ⟨hab.symm, hts⟩
      · exact .inr (.inl h)

end Text

/-- A table with different keys, sorted by them. -/
theorem Table.pairwise_mergeSort {α : Type} {table : Table α} (hn : table.keys.Nodup) :
    (List.mergeSort table fun a b => Text.le a.1 b.1).Pairwise
      fun a b => a.1 ≠ b.1 ∧ Text.le a.1 b.1 = true := by
  have hsorted : (List.mergeSort table fun a b => Text.le a.1 b.1).Pairwise
      fun a b => Text.le a.1 b.1 = true :=
    @List.pairwise_mergeSort _ (fun a b : Text × α => Text.le a.1 b.1)
      (fun _ _ _ => Text.le_trans) (fun a b => Text.le_total a.1 b.1) table
  have hperm := List.mergeSort_perm table fun a b => Text.le a.1 b.1
  exact (List.pairwise_map.1 ((hperm.map Prod.fst).nodup_iff.2 hn)).and hsorted

/-! ## Places -/

/-- The choices of an import as they are meant to be: lists of texts. Files are read as UTF-8. -/
structure ImportChoices where
  placeholders : List Text := ["parent"]
  sourceExtensions : List Text := [".cpp", ".c", ".ino", ".h", ".hpp"]
  mainExtensions : List Text := [".cpp", ".ino"]
  skipFolders : List Text := ["node_modules", ".git", "build", "dist"]
  markers : List Text := ["lv_obj", "lvgl"]

/-- The choices as they are given to an import. -/
def ImportChoices.options (c : ImportChoices) : ImportOptions where
  rootPlaceholders := .texts c.placeholders
  sourceExtensions := .texts c.sourceExtensions
  mainExtensions := .texts c.mainExtensions
  skipFolders := .texts c.skipFolders
  markers := .texts c.markers
  encoding := .text Encoding.utf8.name

/-- The usual choices are the usual options. -/
theorem ImportChoices.options_default : options {} = {} := rfl

/-- A folder of source files: what is chosen for its import, the path that leads to it, and what is
in it. A place in it is given by the names that lead there. -/
structure SourceTree where
  choices : ImportChoices
  root : Text
  entries : List (Text × DiskNode)

namespace SourceTree

section Place

variable (p : SourceTree) (names : List Text)

/-- The path of a place. -/
def path : Text := names.foldl Scan.entryPath p.root

/-- What is at a place. -/
def at? : Option DiskNode := (DiskNode.folder p.entries).at? names

/-- The extension of the last name, in small letters. -/
def extension (names : List Text) : Text := Text.lower (Path.extension (names.getLast?.getD []))

/-- What is passed over is not on the way to the place: no folder whose path is too long, and below
the root no folder with a name that is skipped. -/
structure IsReached : Prop where
  short : ∀ above, above <+: names.dropLast → Disk.isTooLong (p.path above) = false
  notSkipped : ∀ name ∈ names.dropLast, name ∉ p.choices.skipFolders

/-- A place that is listed. A folder whose path is too long is taken for a file. -/
structure IsListed : Prop extends p.IsReached names where
  exists_node : ∃ node, p.at? names = some node ∧
    ∀ entries, node = .folder entries → Disk.isTooLong (p.path names) = true
  extension_mem : extension names ∈ p.choices.sourceExtensions

/-- What a disk holds at a place that is listed. -/
def sourceFile (d : Disk) (names : List Text) : SourceFile where
  path := p.path names
  extension := extension names
  content := d.read Encoding.utf8.name (p.path names)

/-- The tree below an entry that is a folder. -/
def below (name : Text) (entries : List (Text × DiskNode)) : SourceTree :=
  { p with root := Scan.entryPath p.root name, entries }

end Place

end SourceTree

/-- One place comes before another one in a walk: where the ways to them part, it lies at or below
the entry whose name comes first. -/
def Precedes (place place' : List Text) : Prop :=
  ∃ above name name' below below', place = above ++ name :: below ∧
    place' = above ++ name' :: below' ∧ name ≠ name' ∧ Text.le name name' = true

theorem Precedes.cons {place place' : List Text} (h : Precedes place place') (name : Text) :
    Precedes (name :: place) (name :: place') := by
  obtain ⟨above, first, second, below, below', rfl, rfl, hne, hle⟩ := h
  exact ⟨name :: above, first, second, below, below', rfl, rfl, hne, hle⟩

/-- The places with a property, each once and in the order of a walk. -/
structure IsWalk (P : List Text → Prop) (places : List (List Text)) : Prop where
  ordered : places.Pairwise Precedes
  mem_iff : ∀ place, place ∈ places ↔ P place

/-! ## What is listed at and below an entry -/

namespace SourceTree

section Entry

variable {p : SourceTree} {name : Text} {node : DiskNode} {names : List Text}

theorem extension_cons (h : names ≠ []) : extension (name :: names) = extension names := by
  obtain ⟨first, rest, rfl⟩ := List.exists_cons_of_ne_nil h
  rw [extension, extension, List.getLast?_cons_cons]

theorem isReached_singleton (hshort : Disk.isTooLong p.root = false) : p.IsReached [name] where
  short above habove := by
    rw [List.prefix_nil.1 habove]
    exact hshort
  notSkipped _ h := absurd h List.not_mem_nil

theorem isReached_cons (hshort : Disk.isTooLong p.root = false) (h : names ≠ [])
    (entries : List (Text × DiskNode)) : p.IsReached (name :: names) ↔
      name ∉ p.choices.skipFolders ∧ (p.below name entries).IsReached names := by
  have hdropLast : (name :: names).dropLast = name :: names.dropLast := by
    obtain ⟨first, rest, rfl⟩ := List.exists_cons_of_ne_nil h
    rfl
  constructor
  · intro hreached
    obtain ⟨hpaths, hnames⟩ := hreached
    rw [hdropLast] at hpaths hnames
    rw [List.forall_mem_cons] at hnames
    exact ⟨hnames.1, fun above habove =>
      hpaths (name :: above) (List.cons_prefix_cons.2 ⟨rfl, habove⟩), hnames.2⟩
  · rintro ⟨hname, hpaths, hnames⟩
    refine ⟨fun above habove => ?_, ?_⟩
    · rw [hdropLast] at habove
      cases above with
      | nil => exact hshort
      | cons first above =>
        obtain ⟨rfl, hprefix⟩ := List.cons_prefix_cons.1 habove
        exact hpaths above hprefix
    · rw [hdropLast, List.forall_mem_cons]
      exact ⟨hname, hnames⟩

theorem not_isListed_nil (hshort : Disk.isTooLong p.root = false) : ¬ p.IsListed [] := by
  rintro ⟨-, ⟨node, hnode, hlong⟩, -⟩
  cases hnode
  exact Bool.false_ne_true (hshort.symm.trans (hlong p.entries rfl))

variable (hshort : Disk.isTooLong p.root = false) (htree : (DiskNode.folder p.entries).IsTree)
  (hmem : (name, node) ∈ p.entries)
include hshort htree hmem

/-- An entry is listed itself if it is a file, or taken for one. -/
theorem isListed_singleton : p.IsListed [name] ↔
    (∀ entries, node = .folder entries → Disk.isTooLong (Scan.entryPath p.root name) = true) ∧
      extension [name] ∈ p.choices.sourceExtensions := by
  have hat : p.at? [name] = some node := DiskNode.at?_of_mem htree.nodup_keys hmem []
  constructor
  · rintro ⟨-, ⟨found, hfound, hlong⟩, hext⟩
    rw [hat] at hfound
    cases hfound
    exact ⟨hlong, hext⟩
  · rintro ⟨hlong, hext⟩
    exact ⟨isReached_singleton hshort, ⟨node, hat, hlong⟩, hext⟩

/-- What is listed below an entry is listed in the tree below it. -/
theorem isListed_cons (h : names ≠ []) : p.IsListed (name :: names) ↔
    name ∉ p.choices.skipFolders ∧
      ∃ entries, node = .folder entries ∧ (p.below name entries).IsListed names := by
  have hat : p.at? (name :: names) = node.at? names :=
    DiskNode.at?_of_mem htree.nodup_keys hmem names
  constructor
  · rintro ⟨hreached, ⟨found, hfound, hlong⟩, hext⟩
    rw [hat] at hfound
    cases node with
    | file bytes =>
      obtain ⟨first, rest, rfl⟩ := List.exists_cons_of_ne_nil h
      cases hfound
    | folder entries =>
      obtain ⟨hname, hbelow⟩ := (isReached_cons hshort h entries).1 hreached
      exact ⟨hname, entries, rfl, hbelow, ⟨found, hfound, hlong⟩, extension_cons h ▸ hext⟩
  · rintro ⟨hname, entries, rfl, hbelow, ⟨found, hfound, hlong⟩, hext⟩
    refine ⟨(isReached_cons hshort h entries).2 ⟨hname, hbelow⟩, ⟨found, ?_, hlong⟩, ?_⟩
    · rw [hat]
      exact hfound
    · rw [extension_cons h]
      exact hext

end Entry

end SourceTree

/-! ## The walk -/

theorem Value.holds_texts (ts : List Text) (t : Text) :
    (texts ts).holds (.text t) = .ok (decide (t ∈ ts)) := by
  rw [texts, holds, List.any_map, Except.ok.injEq]
  rw [Bool.eq_iff_iff, List.any_eq_true, decide_eq_true_eq]
  simp [equal]

namespace Scan

theorem ofEntries_eq_map (o : ImportOptions) (folder : Text)
    (entries : List (Text × DiskNode)) :
    ofEntries o folder entries = entries.map fun e => (e.1, ofEntry o folder e.1 e.2) := by
  induction entries with
  | nil => rfl
  | cons e entries ih => rw [ofEntries, ih, List.map_cons]

/-- A file is listed by its extension. -/
theorem ofFile_options (c : ImportChoices) (path name : Text) (read : Text → Except Fault Text) :
    ofFile c.options path name read =
      if SourceTree.extension [name] ∈ c.sourceExtensions then
        [⟨path, SourceTree.extension [name], read Encoding.utf8.name⟩]
      else [] := by
  have hholds : c.options.sourceExtensions.holds (.text (Text.lower (Path.extension name))) =
      .ok (decide (SourceTree.extension [name] ∈ c.sourceExtensions)) := Value.holds_texts _ _
  unfold ofFile
  simp only [hholds]
  by_cases hext : SourceTree.extension [name] ∈ c.sourceExtensions
  · rw [decide_eq_true hext, if_pos hext]
    rfl
  · rw [decide_eq_false hext, if_neg hext]

end Scan

namespace SourceTree

variable {d : Disk} {p : SourceTree}

/-- The entries of a folder by name: what is found in them is found in the order of a walk. -/
theorem isWalk_byName {o : ImportOptions} (htree : (DiskNode.folder p.entries).IsTree)
    (hshort : Disk.isTooLong p.root = false)
    (hentries : ∀ e ∈ p.entries, ∃ rests,
      Scan.ofEntry o p.root e.1 e.2 = rests.map (fun rest => p.sourceFile d (e.1 :: rest)) ∧
        IsWalk (fun rest => p.IsListed (e.1 :: rest)) rests) :
    ∃ places, Scan.byName (Scan.ofEntries o p.root p.entries) = places.map (p.sourceFile d) ∧
      IsWalk p.IsListed places := by
  choose! rests hfound hwalk using hentries
  have hperm := List.mergeSort_perm p.entries fun a b => Text.le a.1 b.1
  refine ⟨(p.entries.mergeSort fun a b => Text.le a.1 b.1).flatMap
    fun e => (rests e).map (e.1 :: ·), ?_, ?_, ?_⟩
  · have hsort (f : Text × DiskNode → List SourceFile) :
        ((p.entries.map fun e => (e.1, f e)).mergeSort fun a b => Text.le a.1 b.1) =
          (p.entries.mergeSort fun a b => Text.le a.1 b.1).map fun e => (e.1, f e) :=
      (List.map_mergeSort (f := fun e => (e.1, f e)) fun _ _ _ _ => rfl).symm
    unfold Scan.byName
    rw [Scan.ofEntries_eq_map, hsort, List.flatMap_map, List.map_flatMap]
    refine List.flatMap_congr fun e he => ?_
    rw [hfound e (hperm.mem_iff.1 he), List.map_map]
    rfl
  · refine List.pairwise_flatMap.2 ⟨fun e he => ?_, ?_⟩
    · exact List.pairwise_map.2 ((hwalk e (hperm.mem_iff.1 he)).ordered.imp fun h => h.cons e.1)
    · refine (Table.pairwise_mergeSort htree.nodup_keys).imp
        fun {a b} hab place hplace place' hplace' => ?_
      obtain ⟨rest, -, rfl⟩ := List.mem_map.1 hplace
      obtain ⟨rest', -, rfl⟩ := List.mem_map.1 hplace'
      exact ⟨[], a.1, b.1, rest, rest', rfl, rfl, hab⟩
  · intro place
    constructor
    · intro hplace
      obtain ⟨e, he, hrest⟩ := List.mem_flatMap.1 hplace
      obtain ⟨rest, hmem, rfl⟩ := List.mem_map.1 hrest
      exact ((hwalk e (hperm.mem_iff.1 he)).mem_iff rest).1 hmem
    · intro hlisted
      cases place with
      | nil => exact absurd hlisted (not_isListed_nil hshort)
      | cons name rest =>
        obtain ⟨node, hnode, -⟩ := hlisted.exists_node
        obtain ⟨child, hchild, -⟩ := DiskNode.exists_mem_of_at? hnode
        have hrest := ((hwalk (name, child) hchild).mem_iff rest).2 hlisted
        exact List.mem_flatMap.2 ⟨(name, child), hperm.mem_iff.2 hchild, List.mem_map_of_mem hrest⟩

/-- An entry that is a file, or taken for one, is listed by its extension alone. -/
theorem isWalk_ofFile {name : Text} {node : DiskNode} {read : Text → Except Fault Text}
    (hshort : Disk.isTooLong p.root = false) (htree : (DiskNode.folder p.entries).IsTree)
    (hmem : (name, node) ∈ p.entries)
    (hread : read Encoding.utf8.name = d.read Encoding.utf8.name (Scan.entryPath p.root name))
    (hfile : ∀ entries, node = .folder entries →
      Disk.isTooLong (Scan.entryPath p.root name) = true) :
    ∃ rests, Scan.ofFile p.choices.options (Scan.entryPath p.root name) name read =
        rests.map (fun rest => p.sourceFile d (name :: rest)) ∧
      IsWalk (fun rest => p.IsListed (name :: rest)) rests := by
  have hbelow : ∀ rest, rest ≠ [] → ¬ p.IsListed (name :: rest) := by
    intro rest hrest hlisted
    obtain ⟨-, entries, rfl, hlisted⟩ := (isListed_cons hshort htree hmem hrest).1 hlisted
    exact Bool.false_ne_true
      ((hlisted.short [] List.nil_prefix).symm.trans (hfile entries rfl))
  have hself := isListed_singleton hshort htree hmem
  rw [Scan.ofFile_options, hread]
  by_cases hext : extension [name] ∈ p.choices.sourceExtensions
  · refine ⟨[[]], if_pos hext, List.pairwise_singleton _ _, fun rest => ?_⟩
    rw [List.mem_singleton]
    constructor
    · rintro rfl
      exact hself.2 ⟨hfile, hext⟩
    · exact fun hlisted => by_contra fun hrest => hbelow rest hrest hlisted
  · refine ⟨[], if_neg hext, .nil, fun rest => iff_of_false List.not_mem_nil fun hlisted => ?_⟩
    by_cases hrest : rest = []
    · subst hrest
      exact hext (hself.1 hlisted).2
    · exact hbelow rest hrest hlisted

section Folder

variable {name : Text} {entries : List (Text × DiskNode)}
  (hshort : Disk.isTooLong p.root = false) (htree : (DiskNode.folder p.entries).IsTree)
  (hmem : (name, .folder entries) ∈ p.entries)
  (hseen : Disk.isTooLong (Scan.entryPath p.root name) = false)
include hshort htree hmem hseen

/-- A folder that is seen as one is not listed itself. -/
theorem ne_nil_of_isListed {rest : List Text} (h : p.IsListed (name :: rest)) : rest ≠ [] := by
  rintro rfl
  have hlong := ((isListed_singleton hshort htree hmem).1 h).1 entries rfl
  exact Bool.false_ne_true (hseen.symm.trans hlong)

/-- Nothing is listed in a folder that is skipped. -/
theorem isWalk_skipped (hskip : name ∈ p.choices.skipFolders) :
    IsWalk (fun rest => p.IsListed (name :: rest)) [] := by
  refine ⟨.nil, fun rest => iff_of_false List.not_mem_nil fun hlisted => ?_⟩
  have hrest := ne_nil_of_isListed hshort htree hmem hseen hlisted
  exact ((isListed_cons hshort htree hmem hrest).1 hlisted).1 hskip

/-- In any other folder everything is listed that is listed in the tree below it. -/
theorem isWalk_entered (hskip : name ∉ p.choices.skipFolders) {places : List (List Text)}
    (hwalk : IsWalk (p.below name entries).IsListed places) :
    places.map ((p.below name entries).sourceFile d) =
        places.map (fun rest => p.sourceFile d (name :: rest)) ∧
      IsWalk (fun rest => p.IsListed (name :: rest)) places := by
  have hne : ∀ rest ∈ places, rest ≠ [] := by
    rintro rest hrest rfl
    exact not_isListed_nil hseen ((hwalk.mem_iff []).1 hrest)
  refine ⟨List.map_congr_left fun rest hrest => ?_, hwalk.ordered, fun rest => ?_⟩
  · rw [sourceFile, sourceFile, extension_cons (hne rest hrest)]
    rfl
  · constructor
    · intro hrest
      exact (isListed_cons hshort htree hmem (hne rest hrest)).2
        ⟨hskip, entries, rfl, (hwalk.mem_iff rest).1 hrest⟩
    · intro hlisted
      have hrest := ne_nil_of_isListed hshort htree hmem hseen hlisted
      obtain ⟨-, _, heq, hlisted⟩ := (isListed_cons hshort htree hmem hrest).1 hlisted
      cases heq
      exact (hwalk.mem_iff rest).2 hlisted

end Folder

/-- What one entry stands for is what is listed at and below it. -/
theorem isWalk_ofEntry (node : DiskNode) : ∀ (p : SourceTree) (name : Text),
    d.find p.root = .ok (.folder p.entries) → (DiskNode.folder p.entries).IsTree →
      (name, node) ∈ p.entries → ∃ rests,
        Scan.ofEntry p.choices.options p.root name node =
          rests.map (fun rest => p.sourceFile d (name :: rest)) ∧
        IsWalk (fun rest => p.IsListed (name :: rest)) rests := by
  -- The tree changes on the way down, so it is quantified inside the induction on the node.
  induction node using DiskNode.ind with
  | file bytes =>
    intro p name hroot htree hmem
    have hshort := (Disk.isPath_of_find hroot).short
    have hfind := Disk.find_entryPath hroot (htree.isEntryName_of_mem hmem)
      (Table.get?_of_mem htree.nodup_keys hmem)
    rw [Scan.ofEntry]
    refine isWalk_ofFile hshort htree hmem ?_ fun entries h => nomatch h
    split at hfind
    · next hlong => rw [if_pos hlong, Disk.read_of_find_error hfind]
    · next hlong => rw [if_neg hlong, Disk.read_of_find_file hfind]
  | folder entries ih =>
    intro p name hroot htree hmem
    have hshort := (Disk.isPath_of_find hroot).short
    have hfind := Disk.find_entryPath hroot (htree.isEntryName_of_mem hmem)
      (Table.get?_of_mem htree.nodup_keys hmem)
    rw [Scan.ofEntry]
    split
    · next hlong =>
      rw [if_pos hlong] at hfind
      refine isWalk_ofFile hshort htree hmem ?_ fun _ _ => hlong
      rw [Disk.read_of_find_error hfind]
    · next hlong =>
      rw [if_neg hlong] at hfind
      have hseen := (Disk.isPath_of_find hfind).short
      have hholds : p.choices.options.skipFolders.holds (.text name) =
          .ok (decide (name ∈ p.choices.skipFolders)) := Value.holds_texts _ _
      rw [hholds]
      by_cases hskip : name ∈ p.choices.skipFolders
      · rw [decide_eq_true hskip]
        exact ⟨[], rfl, isWalk_skipped hshort htree hmem hseen hskip⟩
      · rw [decide_eq_false hskip]
        have hbelow : (DiskNode.folder entries).IsTree := htree.of_mem hmem
        obtain ⟨places, hplaces, hwalk⟩ := isWalk_byName (p := p.below name entries) hbelow hseen
          fun e he => ih e he (p.below name entries) e.1 hfind hbelow he
        obtain ⟨hsame, hentered⟩ := isWalk_entered hshort htree hmem hseen hskip hwalk
        exact ⟨places, hplaces.trans hsame, hentered⟩

/-- **A walk finds what is listed**, each place once and by name. -/
theorem exists_walk (hroot : d.find p.root = .ok (.folder p.entries))
    (htree : (DiskNode.folder p.entries).IsTree) :
    ∃ places, Scan.byName (Scan.ofEntries p.choices.options p.root p.entries) =
        places.map (p.sourceFile d) ∧ IsWalk p.IsListed places :=
  isWalk_byName htree (Disk.isPath_of_find hroot).short
    fun e he => isWalk_ofEntry e.2 p e.1 hroot htree he

end SourceTree

end LvglForest
