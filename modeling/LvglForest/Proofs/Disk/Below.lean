import LvglForest.Project.Scan
import LvglForest.Proofs.Disk.Refusal
import LvglForest.Proofs.Text.Utf8

/-!
# Below a folder

The entries of a folder have different names, and these are such as a part of a path can be
(`DiskNode.IsTree`). So the path of an entry leads to the entry whenever the path of the folder
leads to the folder, unless it has too many bytes (`Disk.find_entryPath`).
-/

namespace LvglForest

namespace Utf8

theorem encodePoint?_of_ascii {p : CodePoint} (h : p.value < 0x80) :
    ∃ b, encodePoint? p = some [b] := by
  cases p with
  | char c =>
    have hc : c.toNat < 0x80 := h
    exact ⟨.ofNat c.toNat, congrArg some (if_pos hc)⟩
  | surrogate n => exact absurd (Nat.le_add_right 0xD800 n.val) (Nat.not_le.2 (h.trans (by decide)))

/-- A text in ASCII has as many bytes as characters. -/
theorem length_encode?_of_ascii {t : Text} (h : ∀ p ∈ t, p.value < 0x80) :
    ((encode? t).getD []).length = t.length := by
  obtain ⟨bytes, hbytes, hlength⟩ : ∃ bytes, encode? t = some bytes ∧
      bytes.length = t.length := by
    induction t with
    | nil => exact ⟨[], rfl, rfl⟩
    | cons p t ih =>
      rw [List.forall_mem_cons] at h
      obtain ⟨b, hb⟩ := encodePoint?_of_ascii h.1
      obtain ⟨bytes, hbytes, hlength⟩ := ih h.2
      exact ⟨b :: bytes, by rw [encode?_cons, hb, hbytes]; rfl, congrArg Nat.succ hlength⟩
  rw [hbytes, Option.getD_some, hlength]

end Utf8

instance : DecidablePred CodePoint.FitsPath :=
  fun p => inferInstanceAs (Decidable ((Utf8.encodePoint? p).isSome = true ∧ p ≠ .char '\x00'))

/-- A name that an entry of a folder can have. -/
structure Text.IsEntryName (name : Text) : Prop where
  ne_nil : name ≠ []
  noSlash : .char '/' ∉ name
  fits : name.MadeOf CodePoint.FitsPath
  ne_dot : name ≠ "."
  ne_dots : name ≠ ".."
  short : ((Utf8.encode? name).getD []).length ≤ Disk.nameLimit

instance (name : Text) : Decidable name.IsEntryName :=
  decidable_of_iff
    (name ≠ [] ∧ .char '/' ∉ name ∧ (∀ p ∈ name, p.FitsPath) ∧ name ≠ "." ∧ name ≠ ".." ∧
      ((Utf8.encode? name).getD []).length ≤ Disk.nameLimit)
    ⟨fun ⟨h₁, h₂, h₃, h₄, h₅, h₆⟩ => ⟨h₁, h₂, h₃, h₄, h₅, h₆⟩,
      fun ⟨h₁, h₂, h₃, h₄, h₅, h₆⟩ => ⟨h₁, h₂, h₃, h₄, h₅, h₆⟩⟩

namespace DiskNode

/-- A node that a disk can hold: in every folder the entries have different names, and names that
entries can have. -/
structure IsTree (node : DiskNode) : Prop where
  nodup : ∀ names entries, node.at? names = some (.folder entries) → (Table.keys entries).Nodup
  isEntryName : ∀ names entries, node.at? names = some (.folder entries) →
    ∀ e ∈ entries, e.1.IsEntryName

/-- Induction over a node: a folder may assume the statement for what is in it. -/
theorem ind {P : DiskNode → Prop} (file : ∀ bytes, P (.file bytes))
    (folder : ∀ entries, (∀ e ∈ entries, P e.2) → P (.folder entries)) : ∀ node, P node :=
  @DiskNode.rec P (fun entries => ∀ e ∈ entries, P e.2) (fun e => P e.2) file folder
    (fun _ h => absurd h List.not_mem_nil)
    (fun _ _ he hes e h => (List.mem_cons.1 h).elim (fun heq => heq ▸ he) (hes e))
    (fun _ _ h => h)

section Tree

variable {entries : List (Text × DiskNode)} {e : Text × DiskNode}

/-- The way to something in a folder goes through one of its entries. -/
theorem at?_of_mem (hn : (Table.keys entries).Nodup) (he : e ∈ entries) (names : List Text) :
    (folder entries).at? (e.1 :: names) = e.2.at? names := by
  rw [at?, Table.get?_of_mem hn he, Option.bind_some]

/-- What lies in a folder lies at or below one of its entries. -/
theorem exists_mem_of_at? {name : Text} {names : List Text} {node : DiskNode}
    (h : (folder entries).at? (name :: names) = some node) :
    ∃ child, (name, child) ∈ entries ∧ child.at? names = some node := by
  rw [at?, Option.bind_eq_some_iff] at h
  obtain ⟨child, hget, hat⟩ := h
  exact ⟨child, Table.mem_of_get? hget, hat⟩

namespace IsTree

variable (h : (folder entries).IsTree)
include h

theorem nodup_keys : (Table.keys entries).Nodup := h.nodup [] entries rfl

theorem isEntryName_of_mem (he : e ∈ entries) : e.1.IsEntryName :=
  h.isEntryName [] entries rfl e he

theorem of_mem (he : e ∈ entries) : e.2.IsTree where
  nodup names below hat :=
    h.nodup (e.1 :: names) below ((at?_of_mem h.nodup_keys he names).trans hat)
  isEntryName names below hat :=
    h.isEntryName (e.1 :: names) below ((at?_of_mem h.nodup_keys he names).trans hat)

end IsTree

theorem isTree_file (bytes : List UInt8) : (file bytes).IsTree := by
  have hat : ∀ names entries, (file bytes).at? names ≠ some (folder entries) := by
    intro names entries h
    cases names <;> cases h
  exact ⟨fun names entries h => absurd h (hat names entries),
    fun names entries h => absurd h (hat names entries)⟩

/-- A folder is a tree if its entries have different names, which entries can have, and are trees. -/
theorem isTree_folder (hn : (Table.keys entries).Nodup)
    (h : ∀ e ∈ entries, e.1.IsEntryName ∧ e.2.IsTree) : (folder entries).IsTree where
  nodup names below hat := by
    cases names with
    | nil =>
      cases hat
      exact hn
    | cons name names =>
      obtain ⟨child, hmem, hchild⟩ := exists_mem_of_at? hat
      exact (h (name, child) hmem).2.nodup names below hchild
  isEntryName names below hat := by
    cases names with
    | nil =>
      cases hat
      exact fun e he => (h e he).1
    | cons name names =>
      obtain ⟨child, hmem, hchild⟩ := exists_mem_of_at? hat
      exact (h (name, child) hmem).2.isEntryName names below hchild

end Tree

end DiskNode

/-! ## The path of an entry -/

namespace Disk

open Scan (entryPath)

variable {d : Disk} {path folder name : Text}

theorem find?_eq_none_iff : path.find? (fun p => (Utf8.encodePoint? p).isNone) = none ↔
    ∀ p ∈ path, (Utf8.encodePoint? p).isSome = true := by
  simp [List.find?_eq_none, Option.isSome_iff_ne_none]

/-- What a path must be is a matter of its code points and of its length. -/
theorem isPath_iff :
    IsPath path ↔ path.MadeOf CodePoint.FitsPath ∧ path ≠ [] ∧ isTooLong path = false := by
  constructor
  · intro h
    refine ⟨fun p hp => ⟨find?_eq_none_iff.1 h.encodable p hp, ?_⟩, h.ne_nil, h.short⟩
    rintro rfl
    exact h.noNull hp
  · rintro ⟨hfits, hne, hshort⟩
    exact ⟨find?_eq_none_iff.2 fun p hp => (hfits p hp).1, fun hnull => (hfits _ hnull).2 rfl, hne,
      hshort⟩

/-- Nothing is found at a path that is too long. -/
theorem find_of_isTooLong (hfits : path.MadeOf CodePoint.FitsPath) (hne : path ≠ [])
    (h : isTooLong path = true) : d.find path = .error (.disk .nameTooLong path) := by
  have hencodable := find?_eq_none_iff.2 fun p hp => (hfits p hp).1
  have hnull : .char '\x00' ∉ path := fun hnull => (hfits _ hnull).2 rfl
  have hempty : ¬ path.isEmpty = true := by simpa using hne
  unfold find locate
  simp only [hencodable, if_neg hnull, if_neg hempty, if_pos h]

/-- The path of an entry goes on from that of its folder. -/
theorem exists_entryPath (folder : Text) (hname : name.MadeOf CodePoint.FitsPath) :
    ∃ rest, entryPath folder name = folder ++ rest ∧ rest.MadeOf CodePoint.FitsPath := by
  unfold entryPath
  split
  · exact ⟨name, rfl, hname⟩
  · refine ⟨"/" ++ name, List.append_assoc _ _ _, Text.madeOf_append.2 ⟨?_, hname⟩⟩
    intro p hp
    rw [List.mem_singleton.1 hp]
    exact ⟨rfl, by decide⟩

/-- The parts of the path of an entry are those of the path of its folder and its name. -/
theorem route_entryPath (hname : name.IsEntryName) (hfolder : folder ≠ []) :
    route (entryPath folder name) =
      (Text.splitOn (.char '/') folder).filter (fun part => !part.isEmpty) ++ [name] := by
  have hlast : ∀ path : Text, (path ++ name).getLast? ≠ some (.char '/') := by
    intro path h
    rw [List.getLast?_append_of_ne_nil _ hname.ne_nil] at h
    exact hname.noSlash (List.mem_of_getLast? h)
  have hsingle : [name].filter (fun part => !part.isEmpty) = [name] := by
    rw [List.filter_cons_of_pos (by simpa using hname.ne_nil), List.filter_nil]
  have hparts (path : Text) : Text.splitOn (.char '/') (path ++ .char '/' :: name) =
      Text.splitOn (.char '/') path ++ [name] := by
    rw [Text.splitOn_append, Text.splitOn_of_not_mem hname.noSlash]
  unfold entryPath
  split
  · next hslash =>
    -- The folder ends with a slash, so an empty part stands before the name.
    have hslash : folder.getLast? = some (.char '/') := by simpa [hfolder] using hslash
    obtain ⟨path, rfl⟩ := List.getLast?_eq_some_iff.1 hslash
    have hempty : Text.splitOn (.char '/') (path ++ [.char '/']) =
        Text.splitOn (.char '/') path ++ [[]] := Text.splitOn_append (.char '/') path []
    unfold route
    simp only
    rw [if_neg (hlast _), List.append_assoc, List.singleton_append, hparts, hempty,
      List.filter_append, List.filter_append, hsingle, List.filter_cons_of_neg (by simp),
      List.filter_nil, List.append_nil]
  · have hjoin : folder ++ "/" ++ name = folder ++ .char '/' :: name := by
      rw [List.append_assoc]
      rfl
    unfold route
    simp only
    rw [if_neg (hlast _), hjoin, hparts, List.filter_append, hsingle]

/-- A slash at the end of the path of a folder changes nothing. -/
theorem follow_parts {place start : List Text} (h : d.follow start (route folder) = .ok place) :
    d.follow start ((Text.splitOn (.char '/') folder).filter fun part => !part.isEmpty) =
      .ok place := by
  unfold route at h
  simp only at h
  split at h
  · rw [follow_append] at h
    cases hparts : d.follow start ((Text.splitOn (.char '/') folder).filter fun part => !part.isEmpty)
      with
    | error cause => rw [hparts] at h; cases h
    | ok dir =>
      rw [hparts] at h
      obtain ⟨-, ⟨-, hstay⟩ | ⟨hdots, -⟩ | ⟨hdot, -⟩⟩ := follow_cons_eq_ok h
      · exact hstay
      · exact absurd hdots (by decide)
      · exact absurd rfl hdot
  · exact h

theorem find_eq_ok {path : Text} {node : DiskNode} :
    d.find path = .ok node ↔ ∃ place, d.locate path = .ok place ∧ d.at? place = some node := by
  unfold find
  constructor
  · intro h
    split at h
    · cases h
    · next place hplace =>
      split at h
      · next found hfound =>
        cases h
        exact ⟨place, hplace, hfound⟩
      · cases h
  · rintro ⟨place, hplace, hnode⟩
    rw [hplace]
    simp only [hnode]

theorem isPath_of_find {node : DiskNode} (h : d.find path = .ok node) : IsPath path := by
  obtain ⟨place, hlocate, -⟩ := find_eq_ok.1 h
  exact (locate_eq_ok.1 hlocate).1

/-- What cannot be found cannot be read. -/
theorem read_of_find_error {f : Fault} (h : d.find path = .error f) (encoding : Text) :
    d.read encoding path = .error f := by
  unfold read bytes
  rw [h]

theorem read_of_find_file {content : List UInt8} (h : d.find path = .ok (.file content))
    (encoding : Text) : d.read encoding path = textOf encoding content := by
  unfold read bytes
  rw [h]

/-- **The path of an entry leads to the entry**, unless it is too long. -/
theorem find_entryPath {entries : List (Text × DiskNode)} {node : DiskNode}
    (hfolder : d.find folder = .ok (.folder entries)) (hname : name.IsEntryName)
    (hnode : Table.get? name entries = some node) :
    d.find (entryPath folder name) =
      if isTooLong (entryPath folder name) then
        .error (.disk .nameTooLong (entryPath folder name))
      else .ok node := by
  obtain ⟨place, hlocate, hat⟩ := find_eq_ok.1 hfolder
  obtain ⟨hpath, hfollow⟩ := locate_eq_ok.1 hlocate
  obtain ⟨hfolderFits, hne, -⟩ := isPath_iff.1 hpath
  obtain ⟨rest, heq, hrest⟩ := exists_entryPath folder hname.fits
  have hentryNe : entryPath folder name ≠ [] := by
    rw [heq]
    exact List.append_ne_nil_of_left_ne_nil hne _
  have hentryFits : (entryPath folder name).MadeOf CodePoint.FitsPath := by
    rw [heq]
    exact Text.madeOf_append.2 ⟨hfolderFits, hrest⟩
  split
  · next hlong => exact find_of_isTooLong hentryFits hentryNe hlong
  · next hshort =>
    have hhead : (entryPath folder name).head? = folder.head? := by
      rw [heq, List.head?_append_of_ne_nil _ hne]
    have hstep : d.follow place [name] = .ok (place ++ [name]) := by
      rw [follow, hat]
      simp only
      rw [if_neg hname.ne_dot, if_neg hname.ne_dots, if_neg (Nat.not_lt.2 hname.short), follow]
    have hlocated : d.locate (entryPath folder name) = .ok (place ++ [name]) := by
      refine locate_eq_ok.2 ⟨isPath_iff.2 ⟨hentryFits, hentryNe, by simpa using hshort⟩, ?_⟩
      rw [hhead, route_entryPath hname hne, follow_append, follow_parts hfollow]
      exact hstep
    refine find_eq_ok.2 ⟨place ++ [name], hlocated, ?_⟩
    rw [at?, DiskNode.at?_append, show d.top.at? place = some (.folder entries) from hat,
      Option.bind_some, DiskNode.at?, hnode]
    rfl

end Disk

end LvglForest
