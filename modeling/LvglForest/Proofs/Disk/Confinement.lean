import LvglForest.Proofs.Disk.Basic

/-!
# What operations leave alone

Writing a text changes no place but the one that the path leads to, also where it fails
(`Disk.write_changesFiles`). Making a folder with those above it makes folders only where the path
and the beginnings of it lead (`Disk.settled_settleFolders`). Both are kept by doing one after
the other, and by allowing more.
-/

namespace LvglForest.Disk

variable {d d₁ d₂ d' : Disk} {place : List Text}

/-! ## Files -/

/-- Nothing changes but files at the places of a kind, and no folder becomes a file. -/
structure ChangesFiles (P : List Text → Prop) (d d' : Disk) : Prop where
  working : d'.working = d.working
  changed : ∀ place, d'.found? place ≠ d.found? place →
    P place ∧ d.found? place ≠ some .folder ∧ ∃ bytes, d'.found? place = some (.file bytes)

namespace ChangesFiles

variable {P Q : List Text → Prop}

theorem refl (P : List Text → Prop) (d : Disk) : ChangesFiles P d d :=
  ⟨rfl, fun _ h => absurd rfl h⟩

theorem trans (h₁ : ChangesFiles P d d₁) (h₂ : ChangesFiles P d₁ d₂) : ChangesFiles P d d₂ where
  working := h₂.working.trans h₁.working
  changed place h := by
    -- What the second change leaves alone is decided by the first one.
    by_cases hlast : d₂.found? place = d₁.found? place
    · rw [hlast] at h ⊢
      exact h₁.changed place h
    · obtain ⟨hP, hfolder, hfile⟩ := h₂.changed place hlast
      refine ⟨hP, ?_, hfile⟩
      by_cases hfirst : d₁.found? place = d.found? place
      · rwa [← hfirst]
      · exact (h₁.changed place hfirst).2.1

theorem mono (hPQ : ∀ place, P place → Q place) (h : ChangesFiles P d d') : ChangesFiles Q d d' :=
  ⟨h.working, fun place hplace => (h.changed place hplace).imp (hPQ place) id⟩

theorem toExtends (h : ChangesFiles P d d') : Extends d d' where
  working := h.working
  folders place hplace := by
    by_contra hne
    exact (h.changed place fun heq => hne (heq.trans hplace)).2.1 hplace

end ChangesFiles

theorem Sets.changesFiles {bytes : List UInt8} (h : Sets place (.file bytes) d d') :
    ChangesFiles (· = place) d d' where
  working := h.working
  changed other hother := by
    have heq : other = place := by_contra fun hne => hother (h.others other hne)
    subst heq
    exact ⟨rfl, h.noFolder, bytes, h.set⟩

/-- **Writing a text changes one file at most**, the one that the path leads to. -/
theorem write_changesFiles (d : Disk) (encoding path t : Text) (codecs : Codecs) :
    ChangesFiles (fun place => d.locate path = .ok place ∧ d.found? place ≠ some .folder) d
      (d.write encoding path t codecs).1 := by
  have hset : ∀ {bytes d'}, d.writeBytes path bytes = .ok d' → ChangesFiles
      (fun place => d.locate path = .ok place ∧ d.found? place ≠ some .folder) d d' := by
    intro bytes d' h
    obtain ⟨place, hl, hsets⟩ := writeBytes_eq_ok h
    refine hsets.changesFiles.mono fun other hother => ?_
    rw [hother]
    exact ⟨hl, hsets.noFolder⟩
  unfold write
  split
  · exact .refl _ d
  · next emptied hemptied =>
    split
    -- A text without bytes in the encoding leaves the emptied file behind.
    · exact hset hemptied
    · split
      · exact hset hemptied
      · next hwritten => exact hset hwritten

/-! ## Folders -/

/-- Nothing changes but that folders are made, each where one of the paths of a kind leads. -/
structure MakesFolders (P : Text → Prop) (d d' : Disk) : Prop where
  adds : AddsFolders d d'
  led : ∀ place, d.found? place = none → d'.found? place ≠ none →
    ∃ path, P path ∧ d'.locate path = .ok place

namespace MakesFolders

variable {P Q : Text → Prop}

theorem refl (P : Text → Prop) (d : Disk) : MakesFolders P d d :=
  ⟨.refl d, fun _ h h' => absurd h h'⟩

theorem trans (h₁ : MakesFolders P d d₁) (h₂ : MakesFolders P d₁ d₂) : MakesFolders P d d₂ where
  adds := h₁.adds.trans h₂.adds
  led place hold hnew := by
    by_cases hmiddle : d₁.found? place = none
    · exact h₂.led place hmiddle hnew
    · obtain ⟨path, hpath, hl⟩ := h₁.led place hold hmiddle
      exact ⟨path, hpath, h₂.adds.toExtends.locate hl⟩

theorem mono (hPQ : ∀ path, P path → Q path) (h : MakesFolders P d d') : MakesFolders Q d d' :=
  ⟨h.adds, fun place hold hnew => (h.led place hold hnew).imp fun path => .imp (hPQ path) id⟩

end MakesFolders

theorem makeFolder_makesFolders {path : Text} (h : d.makeFolder path = .ok d') :
    MakesFolders (· = path) d d' ∧ ∃ place, d'.locate path = .ok place := by
  have hadds := makeFolder_addsFolders h
  unfold makeFolder at h
  split at h
  · cases h
  · next place hl =>
    have hl' := hadds.toExtends.locate hl
    refine ⟨⟨hadds, fun other hold hnew => ⟨path, rfl, ?_⟩⟩, place, hl'⟩
    split at h <;> cases h
    next hat =>
    have hsets := sets_put DiskNode.isBare_folder hl (by simp [found?_eq_none.2 hat])
    have heq : other = place := by_contra fun hne => hnew ((hsets.others other hne).trans hold)
    rw [heq, hl']

theorem settleFolder_makesFolders {path : Text} (h : d.settleFolder path = .ok d') :
    MakesFolders (· = path) d d' ∧ ∃ place, d'.locate path = .ok place := by
  unfold settleFolder at h
  split at h
  · next hmade =>
    cases h
    exact makeFolder_makesFolders hmade
  · split at h <;> cases h
    next hfind =>
    refine ⟨.refl _ d, ?_⟩
    unfold find at hfind
    split at hfind
    · cases hfind
    · next place hl => exact ⟨place, hl⟩
  · cases h

/-- The paths that a path begins with, from its root on. -/
def BeginsPath (root : Text) (parts : List Text) (path : Text) : Prop :=
  ∃ beginning, beginning <+: parts ∧ path = Path.toText ⟨root, beginning⟩

theorem beginsPath_self (root : Text) (parts : List Text) :
    BeginsPath root parts (Path.toText ⟨root, parts⟩) := ⟨parts, List.prefix_rfl, rfl⟩

/-- What is left of settling a folder, whether it fails or not. -/
def Settled (P : Text → Prop) (path : Text) (d : Disk) (r : Disk × Option Fault) : Prop :=
  MakesFolders P d r.1 ∧ (r.2 = none → ∃ place, r.1.locate path = .ok place)

theorem settled_settleFolder {P : Text → Prop} {path : Text} (hpath : P path) (d : Disk) :
    Settled P path d (match d.settleFolder path with
      | .ok d => (d, none)
      | .error f => (d, some f)) := by
  split
  · next h =>
    obtain ⟨hmakes, hleads⟩ := settleFolder_makesFolders h
    exact ⟨hmakes.mono (by rintro _ rfl; exact hpath), fun _ => hleads⟩
  · exact ⟨.refl P d, fun h => nomatch h⟩

/-- **Making a folder with those above it makes no others**, also where it fails half-way; and if it
does not fail, the path leads somewhere. -/
theorem settled_settleFolders (root : Text) (parts : List Text) (d : Disk) :
    Settled (BeginsPath root parts.reverse) (Path.toText ⟨root, parts.reverse⟩) d
      (settleFolders root parts d) := by
  have hself := beginsPath_self root parts.reverse
  -- The parts stand in reverse, so this goes up from the folder to its root.
  induction parts generalizing d with
  | nil => exact settled_settleFolder hself d
  | cons part above ih =>
    have habove : ∀ path, BeginsPath root above.reverse path →
        BeginsPath root (part :: above).reverse path := by
      rintro path ⟨beginning, hprefix, rfl⟩
      rw [List.reverse_cons]
      exact ⟨beginning, hprefix.trans (List.prefix_append _ _), rfl⟩
    obtain ⟨hmade, -⟩ := ih d (beginsPath_self root above.reverse)
    rw [settleFolders]
    simp only
    split
    · split
      · next d₁ hsettled =>
        rw [hsettled] at hmade
        obtain ⟨hlast, hleads⟩ := settled_settleFolder hself d₁
        exact ⟨(hmade.mono habove).trans hlast, hleads⟩
      · next hfailed =>
        refine ⟨hmade.mono habove, fun h => ?_⟩
        exact (hfailed _ (Prod.ext rfl h)).elim
    · exact settled_settleFolder hself d

end LvglForest.Disk
