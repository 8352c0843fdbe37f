import LvglForest.Proofs.Disk.Basic
import LvglForest.Proofs.Disk.Encoding

/-!
# Why a disk operation fails

Whether a text can be a path at all is a question of its code points, and one that the disk has no
part in: where a code point has no bytes or is the null byte, every operation fails in the same way
(`Disk.locate_of_not`). For all other texts the disk gives its own reasons only
(`Disk.settleFolders_fault`). Writing a text fails for want of bytes only after the file was opened
(`Disk.write_fault`).
-/

namespace LvglForest

/-! ## Texts of paths -/

/-- A code point that can stand in a path: it has bytes, and not the null byte. -/
def CodePoint.FitsPath (p : CodePoint) : Prop :=
  (Utf8.encodePoint? p).isSome = true ∧ p ≠ .char '\x00'

namespace Path

/-- A path can be given to a disk exactly if its parts can. -/
theorem madeOf_toText {P : CodePoint → Prop} (hslash : P (.char '/')) (hdot : P (.char '.'))
    {p : Path} (hroot : ∀ q ∈ p.root, q = .char '/') :
    p.toText.MadeOf P ↔ ∀ part ∈ p.parts, part.MadeOf P := by
  have hsep : Text.MadeOf P "/" := by simpa [Text.ofString] using hslash
  unfold toText
  split
  · next h =>
    rw [List.isEmpty_iff, List.isEmpty_iff] at h
    rw [h.2]
    exact iff_of_true (by simpa [Text.ofString] using hdot) (by simp)
  · have hslashes : p.root.MadeOf P := fun q hq => (hroot q hq).symm ▸ hslash
    rw [Text.madeOf_append, Text.madeOf_join hsep, and_iff_right hslashes]

theorem madeOf_parts_ofText {P : CodePoint → Prop} (hslash : P (.char '/')) (hdot : P (.char '.'))
    (t : Text) : (∀ part ∈ (ofText t).parts, part.MadeOf P) ↔ t.MadeOf P := by
  rw [← Text.madeOf_splitOn hslash]
  unfold ofText
  simp only [List.mem_filter, Bool.and_eq_true, decide_eq_true_eq, Bool.not_eq_true']
  constructor
  · intro h part hpart
    by_cases hempty : part.isEmpty = true
    · rw [List.isEmpty_iff.1 hempty]
      exact Text.madeOf_nil
    · by_cases hsingle : part = "."
      · rw [hsingle]
        simpa [Text.ofString] using hdot
      · exact h part ⟨hpart, by simpa using hempty, hsingle⟩
  · exact fun h part hpart => h part hpart.1

end Path

/-! ## Operations -/

/-- A fault of a path that no disk could follow. -/
def Fault.IsOfPath (f : Fault) : Prop := f.kind = .unencodable ∨ f = .nullByte

namespace Disk

variable {d d' : Disk} {path : Text} {f : Fault}

section PathText

variable (hpath : path.MadeOf CodePoint.FitsPath)
include hpath

/-- A text that can be a path is refused by the disk only. -/
theorem locate_fault (h : d.locate path = .error f) : ∃ cause, f = .disk cause path := by
  have hencodable : path.find? (fun p => (Utf8.encodePoint? p).isNone) = none := by
    rw [List.find?_eq_none]
    intro p hp
    rw [Bool.not_eq_true, Option.isNone_eq_false_iff]
    exact (hpath p hp).1
  have hnull : .char '\x00' ∉ path := fun hmem => (hpath _ hmem).2 rfl
  unfold locate at h
  rw [hencodable] at h
  simp only [if_neg hnull] at h
  split at h
  · exact ⟨_, (Except.error.inj h).symm⟩
  split at h
  · exact ⟨_, (Except.error.inj h).symm⟩
  split at h
  · cases h
  · exact ⟨_, (Except.error.inj h).symm⟩

theorem makeFolder_fault (h : d.makeFolder path = .error f) : ∃ cause, f = .disk cause path := by
  unfold makeFolder at h
  split at h
  · next hl =>
    cases h
    exact locate_fault hpath hl
  · split at h <;> cases h
    exact ⟨_, rfl⟩

theorem settleFolder_fault (h : d.settleFolder path = .error f) :
    ∃ cause, f = .disk cause path := by
  unfold settleFolder at h
  split at h
  · cases h
  · next cause p hmade =>
    split at h
    · cases h
    · cases h
      exact makeFolder_fault hpath hmade
  · next hmade =>
    cases h
    exact makeFolder_fault hpath hmade

theorem settled_fault (h : (match d.settleFolder path with
      | .ok d => (d, none)
      | .error f => (d₁, some f)) = (d', some f)) : ∃ cause path, f = .disk cause path := by
  split at h
  · cases h
  · next hsettled =>
    cases h
    obtain ⟨cause, hcause⟩ := settleFolder_fault hpath hsettled
    exact ⟨cause, path, hcause⟩

theorem writeBytes_fault {bytes : List UInt8} (h : d.writeBytes path bytes = .error f) :
    ∃ cause, f = .disk cause path := by
  unfold writeBytes at h
  split at h
  · next hl =>
    cases h
    exact locate_fault hpath hl
  · split at h <;> cases h
    exact ⟨_, rfl⟩

end PathText

/-! Where a code point cannot stand in a path, nothing is done. -/

section NoPathText

variable (hpath : ¬ path.MadeOf CodePoint.FitsPath)
include hpath

theorem locate_of_not (d : Disk) : ∃ f : Fault, f.IsOfPath ∧ d.locate path = .error f := by
  unfold locate
  split
  · exact ⟨_, .inl rfl, rfl⟩
  · next hencodable =>
    split
    · exact ⟨_, .inr rfl, rfl⟩
    · next hnull =>
      refine absurd (fun p hp => ⟨?_, fun h => hnull (h ▸ hp)⟩) hpath
      have hsome := List.find?_eq_none.1 hencodable p hp
      simpa [Option.isNone_iff_eq_none, Option.isSome_iff_ne_none] using hsome

theorem settleFolder_of_not (d : Disk) :
    ∃ f : Fault, f.IsOfPath ∧ d.makeFolder path = .error f ∧ d.settleFolder path = .error f := by
  obtain ⟨f, hf, hl⟩ := locate_of_not hpath d
  have hmade : d.makeFolder path = .error f := by rw [makeFolder, hl]
  refine ⟨f, hf, hmade, ?_⟩
  unfold settleFolder
  rw [hmade]
  split
  · next h => cases h
  · next h =>
    cases h
    rcases hf with hf | hf <;> cases hf
  · next h =>
    cases h
    rfl

end NoPathText

/-! ## Folders -/

section Folders

variable {root : Text} (hroot : ∀ q ∈ root, q = .char '/') {parts : List Text}
include hroot

theorem madeOf_folder : (Path.toText ⟨root, parts.reverse⟩).MadeOf CodePoint.FitsPath ↔
    ∀ part ∈ parts, part.MadeOf CodePoint.FitsPath := by
  rw [Path.madeOf_toText ⟨rfl, by decide⟩ ⟨rfl, by decide⟩ hroot]
  simp

/-- **Folders are refused by the disk only**, if their path can be one. -/
theorem settleFolders_fault (hparts : ∀ part ∈ parts, part.MadeOf CodePoint.FitsPath)
    (h : settleFolders root parts d = (d', some f)) : ∃ cause path, f = .disk cause path := by
  induction parts generalizing d' with
  | nil =>
    have hpath := (madeOf_folder hroot).2 hparts
    exact settled_fault hpath h
  | cons part above ih =>
    have hpath := (madeOf_folder hroot).2 hparts
    rw [settleFolders] at h
    simp only at h
    split at h
    · split at h
      · exact settled_fault hpath h
      · exact ih (List.forall_mem_cons.1 hparts).2 h
    · exact settled_fault hpath h

/-- Folders with a path that cannot be one are not made. -/
theorem settleFolders_of_not (hparts : ¬ ∀ part ∈ parts, part.MadeOf CodePoint.FitsPath)
    (d : Disk) : ∃ f : Fault, f.IsOfPath ∧ settleFolders root parts d = (d, some f) := by
  obtain ⟨f, hf, hmade, hsettled⟩ := settleFolder_of_not (mt (madeOf_folder hroot).1 hparts) d
  refine ⟨f, hf, ?_⟩
  cases parts with
  | nil => exact absurd (fun _ h => absurd h List.not_mem_nil) hparts
  | cons part above =>
    rw [settleFolders]
    simp only [hmade, hsettled]
    rcases hf with hf | rfl
    · split
      · next h =>
        cases h
        cases hf
      · rfl
    · rfl

end Folders

/-! ## Files -/

/-- Whether a file can be opened does not depend on what is written. -/
theorem exists_writeBytes (h : d.writeBytes path [] = .ok d') (bytes : List UInt8) :
    ∃ d'', d.writeBytes path bytes = .ok d'' := by
  unfold writeBytes at h ⊢
  split at h
  · cases h
  · split at h
    · cases h
    · exact ⟨_, rfl⟩

/-- **Writing a text fails** where the file cannot be opened, or else where the text has no
bytes. -/
theorem write_fault {e : Encoding} {t : Text} (h : d.write e.name path t = (d', some f)) :
    d.writeBytes path [] = .error f ∨ d.writeBytes path [] = .ok d' ∧ e.encode t = .error f := by
  have hbytes : bytesOf e.name t = e.encode t := by
    rw [bytesOf, Encoding.get_standard]
    rfl
  unfold write at h
  rw [hbytes] at h
  split at h
  · next hopen =>
    cases h
    exact .inl hopen
  · next emptied hopen =>
    split at h
    · next hencode =>
      cases h
      exact .inr ⟨hopen, hencode⟩
    · next bytes _ =>
      obtain ⟨written, hwritten⟩ := exists_writeBytes hopen bytes
      rw [hwritten] at h
      cases h

theorem write_of_encode {e : Encoding} {t : Text} (hopen : d.writeBytes path [] = .ok d')
    (hencode : e.encode t = .error f) : d.write e.name path t = (d', some f) := by
  have hbytes : bytesOf e.name t = e.encode t := by
    rw [bytesOf, Encoding.get_standard]
    rfl
  simp only [write, hopen, hbytes, hencode]

end Disk

end LvglForest
