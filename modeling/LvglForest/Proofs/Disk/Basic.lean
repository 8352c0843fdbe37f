import LvglForest.Disk.Basic
import LvglForest.Proofs.Disk.Path
import LvglForest.Proofs.Table

/-!
# What operations change on a disk

Making a folder and writing a file put one entry at one place (`Disk.Sets`), and everything that
stands at another place stays as it is, although the disk is a tree and the place lies deep inside
it (`DiskNode.found?_put`). Making a folder together with those above it adds folders and nothing
else (`Disk.AddsFolders`).

No folder ever goes away (`Disk.Extends`), so a path that leads somewhere leads there ever after
(`Disk.Extends.locate`).
-/

namespace LvglForest

/-- What stands at a place, without what is below it. -/
inductive DiskEntry where
  | file (bytes : List UInt8)
  | folder

namespace DiskNode

/-- A node without what is below it. -/
def entry : DiskNode → DiskEntry
  | file bytes => .file bytes
  | folder _ => .folder

/-- What stands under the given names. -/
def found? (names : List Text) (node : DiskNode) : Option DiskEntry := (node.at? names).map entry

theorem found?_eq_file {names : List Text} {node : DiskNode} {bytes : List UInt8} :
    node.found? names = some (.file bytes) ↔ node.at? names = some (.file bytes) := by
  rw [found?]
  cases node.at? names with
  | none => simp
  | some found => cases found <;> simp [entry]

theorem found?_eq_folder {names : List Text} {node : DiskNode} :
    node.found? names = some .folder ↔ ∃ entries, node.at? names = some (.folder entries) := by
  rw [found?]
  cases node.at? names with
  | none => simp
  | some found => cases found <;> simp [entry]

theorem at?_append (names rest : List Text) (node : DiskNode) :
    node.at? (names ++ rest) = (node.at? names).bind (at? rest) := by
  induction names generalizing node with
  | nil => rfl
  | cons name names ih =>
    cases node with
    | file bytes => rfl
    | folder entries =>
      rw [List.cons_append, at?, at?, Option.bind_assoc]
      exact Option.bind_congr fun child _ => ih child

/-- Whatever something stands in is a folder. -/
theorem found?_of_append {names rest : List Text} {node : DiskNode} {e : DiskEntry}
    (h : node.found? (names ++ rest) = some e) (hrest : rest ≠ []) :
    node.found? names = some .folder := by
  obtain ⟨name, rest, rfl⟩ := List.exists_cons_of_ne_nil hrest
  rw [found?, at?_append] at h
  rw [found?]
  cases hat : node.at? names with
  | none => rw [hat] at h; cases h
  | some found =>
    rw [hat] at h
    cases found with
    | file bytes => cases h
    | folder entries => rfl

/-- A node with nothing below it. -/
def IsBare (node : DiskNode) : Prop := ∀ name names, node.at? (name :: names) = none

theorem isBare_file (bytes : List UInt8) : (file bytes).IsBare := fun _ _ => rfl

theorem isBare_folder : (folder []).IsBare := fun _ _ => rfl

section Put

variable {dir : List Text} {name : Text} {new node : DiskNode}

/-- What is put into a folder is found there. -/
theorem at?_put (hdir : node.found? dir = some .folder) :
    (put (dir ++ [name]) new node).at? (dir ++ [name]) = some new := by
  induction dir generalizing node with
  | nil =>
    obtain ⟨entries, hnode⟩ := found?_eq_folder.1 hdir
    cases hnode
    rw [List.nil_append, put, put, at?, Table.get?_put, if_pos rfl]
    rfl
  | cons first dir ih =>
    cases node with
    | file bytes => cases hdir
    | folder entries =>
      cases hchild : Table.get? first entries with
      | none => rw [found?, at?, hchild] at hdir; cases hdir
      | some child =>
        rw [found?, at?, hchild] at hdir
        rw [List.cons_append, put, at?, Table.get?_put, if_pos rfl, hchild]
        exact ih hdir

/-- **What is put into a folder changes nothing else.** Neither has anything below it: not what is
put, and not what was there before. -/
theorem found?_put (hdir : node.found? dir = some .folder) (hnew : new.IsBare)
    (hold : ∀ below, below ≠ [] → node.found? (dir ++ name :: below) = none) {other : List Text}
    (hother : other ≠ dir ++ [name]) :
    (put (dir ++ [name]) new node).found? other = node.found? other := by
  induction dir generalizing node other with
  | nil =>
    obtain ⟨entries, hnode⟩ := found?_eq_folder.1 hdir
    cases hnode
    rw [List.nil_append, put, put]
    cases other with
    | nil => rfl
    | cons first rest =>
      by_cases hfirst : name = first
      · -- At the place itself nothing was below, and nothing is.
        subst hfirst
        have hrest : rest ≠ [] := fun h => hother (by rw [h, List.nil_append])
        rw [show found? (name :: rest) (folder entries) = none from hold rest hrest]
        obtain ⟨second, rest, rfl⟩ := List.exists_cons_of_ne_nil hrest
        rw [found?, at?, Table.get?_put, if_pos rfl, Option.bind_some, hnew second rest]
        rfl
      · rw [found?, found?, at?, at?, Table.get?_put, if_neg hfirst]
  | cons first dir ih =>
    cases node with
    | file bytes => cases hdir
    | folder entries =>
      cases hchild : Table.get? first entries with
      | none => rw [found?, at?, hchild] at hdir; cases hdir
      | some child =>
        have hin : ∀ names, found? (first :: names) (folder entries) = child.found? names :=
          fun names => by rw [found?, at?, hchild]; rfl
        rw [hin] at hdir
        rw [List.cons_append, put, hchild, Option.getD_some]
        cases other with
        | nil => rfl
        | cons head rest =>
          by_cases hhead : first = head
          · subst hhead
            have hrest : rest ≠ dir ++ [name] := fun h => hother (by rw [h, List.cons_append])
            rw [hin, ← ih hdir (fun below hbelow => (hin _).symm.trans (hold below hbelow)) hrest,
              found?, at?, Table.get?_put, if_pos rfl]
            rfl
          · rw [found?, found?, at?, at?, Table.get?_put, if_neg hhead]

end Put

end DiskNode

namespace Disk

variable {d d₁ d₂ d' : Disk} {place : List Text}

/-- What stands at a place. -/
def found? (place : List Text) (d : Disk) : Option DiskEntry := d.top.found? place

theorem found?_eq_file {bytes : List UInt8} :
    d.found? place = some (.file bytes) ↔ d.at? place = some (.file bytes) :=
  DiskNode.found?_eq_file

theorem found?_eq_folder :
    d.found? place = some .folder ↔ ∃ entries, d.at? place = some (.folder entries) :=
  DiskNode.found?_eq_folder

theorem found?_eq_none : d.found? place = none ↔ d.at? place = none :=
  Option.map_eq_none_iff

/-! ## Following paths -/

theorem follow_append (start parts rest : List Text) :
    d.follow start (parts ++ rest) = (d.follow start parts).bind (d.follow · rest) := by
  induction parts generalizing start with
  | nil => rfl
  | cons part parts ih =>
    rw [List.cons_append, follow, follow]
    split
    · rfl
    · rfl
    · split
      · exact ih _
      · split
        · exact ih _
        · split
          · rfl
          · exact ih _

/-- A path that is followed starts in a folder. Its first part stays there, leads to the folder
above, or names what is in it. -/
theorem follow_cons_eq_ok {start : List Text} {part : Text} {parts : List Text}
    (h : d.follow start (part :: parts) = .ok place) :
    d.found? start = some .folder ∧
      ((part = "." ∧ d.follow start parts = .ok place) ∨
        (part = ".." ∧ d.follow start.dropLast parts = .ok place) ∨
        (part ≠ "." ∧ d.follow (start ++ [part]) parts = .ok place)) := by
  rw [follow] at h
  split at h
  · cases h
  · cases h
  · next entries hat =>
    refine ⟨found?_eq_folder.2 ⟨entries, hat⟩, ?_⟩
    split at h
    · next hdot => exact .inl ⟨hdot, h⟩
    · next hdot =>
      split at h
      · next hdots => exact .inr (.inl ⟨hdots, h⟩)
      · split at h
        · cases h
        · exact .inr (.inr ⟨hdot, h⟩)

/-- A single dot leads to a folder. -/
theorem found?_of_follow_dot {start : List Text} (h : d.follow start [("." : Text)] = .ok place) :
    d.found? place = some .folder := by
  obtain ⟨hfolder, ⟨-, h⟩ | ⟨hdots, -⟩ | ⟨hdot, -⟩⟩ := follow_cons_eq_ok h
  · cases h
    exact hfolder
  · exact absurd hdots (by decide)
  · exact absurd rfl hdot

/-- The last part of a path to something that is no folder names it in a folder that the parts
before it lead to. -/
theorem follow_concat {start parts : List Text} {part : Text}
    (h : d.follow start (parts ++ [part]) = .ok place) (hplace : d.found? place ≠ some .folder) :
    ∃ dir, d.follow start parts = .ok dir ∧ d.found? dir = some .folder ∧ place = dir ++ [part] := by
  rw [follow_append] at h
  cases hdir : d.follow start parts with
  | error cause => rw [hdir] at h; cases h
  | ok dir =>
    rw [hdir] at h
    obtain ⟨hfolder, ⟨-, hlast⟩ | ⟨-, hlast⟩ | ⟨-, hlast⟩⟩ := follow_cons_eq_ok h
    · cases hlast
      exact absurd hfolder hplace
    · cases hlast
      refine absurd ?_ hplace
      rcases List.eq_nil_or_concat dir with rfl | ⟨above, last, rfl⟩
      · exact hfolder
      · rw [List.concat_eq_append] at hfolder ⊢
        rw [List.dropLast_concat]
        exact DiskNode.found?_of_append hfolder (List.cons_ne_nil last [])
    · cases hlast
      exact ⟨dir, rfl, hfolder, rfl⟩

/-- The folder in which a path starts. -/
def start (d : Disk) (p : Path) : List Text := if p.root = [] then d.working else []

theorem head?_toText {p : Path} (hp : p.IsClean) :
    p.toText.head? = some (.char '/') ↔ p.root ≠ [] := by
  have hroot : ∀ q r, p.root = q :: r → q = .char '/' := fun q r h =>
    hp.root q (h ▸ List.mem_cons_self)
  unfold Path.toText
  split
  · next h =>
    rw [List.isEmpty_iff, List.isEmpty_iff] at h
    rw [h.1]
    decide
  · next h =>
    cases hr : p.root with
    | cons q r => simp [hroot q r hr]
    | nil =>
      rw [hr] at h
      obtain ⟨part, parts, hparts⟩ : ∃ part parts, p.parts = part :: parts :=
        List.exists_cons_of_ne_nil (by simpa using h)
      obtain ⟨hne, hslash⟩ := hp.part part (hparts ▸ List.mem_cons_self)
      obtain ⟨q, r, rfl⟩ := List.exists_cons_of_ne_nil hne
      rw [List.mem_cons, not_or] at hslash
      have hhead : (Text.join "/" ((q :: r) :: parts)).head? = some q := by
        cases parts <;> rfl
      rw [hparts, List.nil_append, hhead]
      simpa using fun h => hslash.1 h.symm

/-- A text that can be given as a path. -/
structure IsPath (path : Text) : Prop where
  encodable : path.find? (fun p => (Utf8.encodePoint? p).isNone) = none
  noNull : .char '\x00' ∉ path
  ne_nil : path ≠ []
  short : isTooLong path = false

theorem locate_eq_ok {path : Text} : d.locate path = .ok place ↔ IsPath path ∧
    d.follow (if path.head? = some (.char '/') then [] else d.working) (route path) = .ok place := by
  constructor
  · intro h
    unfold locate at h
    split at h
    · cases h
    · next hencodable =>
      split at h
      · cases h
      · next hnull =>
        split at h
        · cases h
        · next hempty =>
          split at h
          · cases h
          · next hshort =>
            simp only at h
            split at h
            · next hfollow =>
              cases h
              exact ⟨⟨hencodable, hnull, by simpa using hempty, Bool.not_eq_true _ ▸ hshort⟩, hfollow⟩
            · cases h
  · rintro ⟨hpath, hfollow⟩
    have hempty : ¬ path.isEmpty = true := by simpa using hpath.ne_nil
    unfold locate
    simp only [hpath.encodable, if_neg hpath.noNull, if_neg hempty,
      hpath.short, Bool.false_eq_true, if_false, hfollow]

/-- **Where a path leads is a matter of its parts.** -/
theorem follow_of_locate {p : Path} (hp : p.IsClean) (h : d.locate p.toText = .ok place) :
    d.follow (d.start p) (if p.parts = [] then [("." : Text)] else p.parts) = .ok place := by
  have hstart : (if p.toText.head? = some (.char '/') then [] else d.working) = d.start p := by
    rw [start]
    by_cases hroot : p.root = []
    · rw [if_pos hroot, if_neg fun hh => (head?_toText hp).1 hh hroot]
    · rw [if_neg hroot, if_pos ((head?_toText hp).2 hroot)]
  rw [← hstart, ← Path.route_toText hp]
  exact (locate_eq_ok.1 h).2

/-- The same with the parts as they are, where a dot stays for the path without parts. -/
theorem follow_parts_of_locate {p : Path} (hp : p.IsClean) (h : d.locate p.toText = .ok place) :
    d.follow (d.start p) p.parts = .ok place := by
  have hfollow := follow_of_locate hp h
  split at hfollow
  · next hparts =>
    rw [hparts]
    obtain ⟨-, ⟨-, hstay⟩ | ⟨hdots, -⟩ | ⟨hdot, -⟩⟩ := follow_cons_eq_ok hfollow
    · exact hstay
    · exact absurd hdots (by decide)
    · exact absurd rfl hdot
  · exact hfollow

/-! ## Disks that grow -/

/-- A disk has the folders of another one. -/
structure Extends (d d' : Disk) : Prop where
  working : d'.working = d.working
  folders : ∀ place, d.found? place = some .folder → d'.found? place = some .folder

namespace Extends

theorem refl (d : Disk) : Extends d d := ⟨rfl, fun _ h => h⟩

theorem trans (h₁ : Extends d d₁) (h₂ : Extends d₁ d₂) : Extends d d₂ :=
  ⟨h₂.working.trans h₁.working, fun place h => h₂.folders place (h₁.folders place h)⟩

theorem follow (h : Extends d d') {start parts : List Text}
    (hf : d.follow start parts = .ok place) : d'.follow start parts = .ok place := by
  induction parts generalizing start with
  | nil => exact hf
  | cons part parts ih =>
    obtain ⟨hfolder, -⟩ := follow_cons_eq_ok hf
    obtain ⟨entries, hat⟩ := found?_eq_folder.1 hfolder
    obtain ⟨entries', hat'⟩ := found?_eq_folder.1 (h.folders start hfolder)
    rw [Disk.follow, hat] at hf
    rw [Disk.follow, hat']
    simp only at hf ⊢
    split at hf
    · next hdot => rw [if_pos hdot, ih hf]
    · next hdot =>
      rw [if_neg hdot]
      split at hf
      · next hdots => rw [if_pos hdots, ih hf]
      · next hdots =>
        rw [if_neg hdots]
        split at hf
        · cases hf
        · next hlength => rw [if_neg hlength, ih hf]

/-- A path keeps leading where it leads. -/
theorem locate (h : Extends d d') {path : Text} (hl : d.locate path = .ok place) :
    d'.locate path = .ok place := by
  rw [locate_eq_ok] at hl ⊢
  rw [h.working]
  exact ⟨hl.1, h.follow hl.2⟩

end Extends

/-! ## Single operations -/

/-- An entry is put at a place at which no folder is, and nothing else changes. -/
structure Sets (place : List Text) (e : DiskEntry) (d d' : Disk) : Prop where
  working : d'.working = d.working
  noFolder : d.found? place ≠ some .folder
  set : d'.found? place = some e
  others : ∀ other, other ≠ place → d'.found? other = d.found? other

theorem Sets.toExtends {e : DiskEntry} (h : Sets place e d d') : Extends d d' where
  working := h.working
  folders other hother := by
    have hne : other ≠ place := by
      rintro rfl
      exact h.noFolder hother
    rw [h.others other hne, hother]

/-- What is put where a path leads, if it leads to no folder. -/
theorem sets_put {path : Text} {new : DiskNode} (hnew : new.IsBare)
    (hl : d.locate path = .ok place) (hplace : d.found? place ≠ some .folder) :
    Sets place new.entry d (d.put place new) := by
  obtain ⟨hpath, hfollow⟩ := locate_eq_ok.1 hl
  obtain ⟨before, part, hroute⟩ :=
    (List.eq_nil_or_concat (route path)).resolve_left (route_ne_nil hpath.ne_nil)
  rw [hroute, List.concat_eq_append] at hfollow
  obtain ⟨dir, -, hdir, rfl⟩ := follow_concat hfollow hplace
  refine ⟨rfl, hplace, ?_, fun other hother => DiskNode.found?_put hdir hnew ?_ hother⟩
  · exact congrArg (Option.map DiskNode.entry) (DiskNode.at?_put hdir)
  · intro below hbelow
    refine Option.eq_none_iff_forall_not_mem.2 fun e he => hplace ?_
    have hbelow' : d.top.found? ((dir ++ [part]) ++ below) = some e := by
      rw [List.append_assoc]
      exact he
    exact DiskNode.found?_of_append hbelow' hbelow

theorem writeBytes_eq_ok {path : Text} {bytes : List UInt8}
    (h : d.writeBytes path bytes = .ok d') :
    ∃ place, d.locate path = .ok place ∧ Sets place (.file bytes) d d' := by
  unfold writeBytes at h
  split at h
  · cases h
  · next place hl =>
    refine ⟨place, hl, ?_⟩
    split at h
    · cases h
    · next hfolder =>
      cases h
      refine sets_put (DiskNode.isBare_file bytes) hl fun hplace => ?_
      obtain ⟨entries, hat⟩ := found?_eq_folder.1 hplace
      exact hfolder entries hat

/-- **Writing a text sets one file to the bytes of the text.** -/
theorem write_eq_ok {encoding path t : Text} {codecs : Codecs}
    (h : d.write encoding path t codecs = (d', none)) :
    ∃ bytes place, bytesOf encoding t codecs = .ok bytes ∧ d.locate path = .ok place ∧
      Sets place (.file bytes) d d' := by
  unfold write at h
  split at h
  · cases h
  · next emptied hemptied =>
    split at h
    · cases h
    · next bytes hbytes =>
      split at h
      · cases h
      · next hwritten =>
        cases h
        obtain ⟨place, hl, hsets⟩ := writeBytes_eq_ok hwritten
        exact ⟨bytes, place, hbytes, hl, hsets⟩

/-! ## Making folders -/

/-- A disk has more folders than another one, and is the same otherwise. -/
structure AddsFolders (d d' : Disk) : Prop where
  working : d'.working = d.working
  kept : ∀ place e, d.found? place = some e → d'.found? place = some e
  new : ∀ place, d.found? place = none → ∀ e, d'.found? place = some e → e = .folder

namespace AddsFolders

theorem refl (d : Disk) : AddsFolders d d :=
  ⟨rfl, fun _ _ h => h, fun _ h e he => by rw [h] at he; cases he⟩

theorem trans (h₁ : AddsFolders d d₁) (h₂ : AddsFolders d₁ d₂) : AddsFolders d d₂ where
  working := h₂.working.trans h₁.working
  kept place e h := h₂.kept place e (h₁.kept place e h)
  new place h e he := by
    cases hmiddle : d₁.found? place with
    | none => exact h₂.new place hmiddle e he
    | some e' =>
      rw [h₂.kept place e' hmiddle, Option.some.injEq] at he
      exact he ▸ h₁.new place h e' hmiddle

theorem toExtends (h : AddsFolders d d') : Extends d d' :=
  ⟨h.working, fun place => h.kept place .folder⟩

theorem found?_eq_file_iff (h : AddsFolders d d') {bytes : List UInt8} :
    d'.found? place = some (.file bytes) ↔ d.found? place = some (.file bytes) := by
  refine ⟨fun h' => ?_, h.kept place _⟩
  cases hbefore : d.found? place with
  | none => cases h.new place hbefore _ h'
  | some e => exact (h.kept place e hbefore).symm.trans h'

end AddsFolders

theorem makeFolder_addsFolders {path : Text} (h : d.makeFolder path = .ok d') :
    AddsFolders d d' := by
  unfold makeFolder at h
  split at h
  · cases h
  · next place hl =>
    split at h
    · cases h
    · next hat =>
      cases h
      have hnone : d.found? place = none := found?_eq_none.2 hat
      have hsets := sets_put DiskNode.isBare_folder hl (by simp [hnone])
      refine ⟨hsets.working, fun other e he => ?_, fun other hother e he => ?_⟩
      · have hne : other ≠ place := by
          rintro rfl
          rw [hnone] at he
          cases he
        rw [hsets.others other hne, he]
      · by_cases hne : other = place
        · subst hne
          rw [hsets.set] at he
          cases he
          rfl
        · rw [hsets.others other hne, hother] at he
          cases he

theorem settleFolder_addsFolders {path : Text} (h : d.settleFolder path = .ok d') :
    AddsFolders d d' := by
  unfold settleFolder at h
  split at h
  · next hmade =>
    cases h
    exact makeFolder_addsFolders hmade
  · split at h
    · cases h
      exact .refl d
    · cases h
  · cases h

/-- **Making a folder with those above it adds folders only**, also where it fails half-way. -/
theorem settleFolders_addsFolders (root : Text) (parts : List Text) (d : Disk) :
    AddsFolders d (settleFolders root parts d).1 := by
  induction parts generalizing d with
  | nil =>
    rw [settleFolders]
    split
    · next h => exact settleFolder_addsFolders h
    · exact .refl d
  | cons part above ih =>
    rw [settleFolders]
    simp only
    split
    · split
      · next habove =>
        have hmade := ih d
        rw [habove] at hmade
        split
        · next h => exact hmade.trans (settleFolder_addsFolders h)
        · exact hmade
      · exact ih d
    · split
      · next h => exact settleFolder_addsFolders h
      · exact .refl d

end Disk

end LvglForest
