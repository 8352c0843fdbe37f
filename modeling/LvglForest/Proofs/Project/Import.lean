import LvglForest.Project.Import
import LvglForest.Proofs.Fault
import LvglForest.Proofs.Hierarchy.Source
import LvglForest.Proofs.Value.Display
import LvglForest.Proofs.Widget.Exchange

/-!
# Imports that are written

Whatever a source says can be written into a document (`ParsedFile.exists_toValue`), so an import of
sources in memory always has a record (`ImportOutcome.exists_toValue_ofSources`).
-/

namespace LvglForest

/-! ## Widgets -/

/-- A size that can be shown can be written into a document. -/
theorem Size.CanShow.exists_toValue {s : Size} (h : s.CanShow) : ∃ v, s.toValue = .ok v := by
  cases s with
  | plain v => exact ⟨v, rfl⟩
  | percent v =>
    obtain ⟨t, ht⟩ : ∃ t, v.display = .ok t := Fault.exists_map_iff.1 h
    exact ⟨_, by rw [toValue, display, ht]; rfl; simp⟩

/-- A widget that can be written into a document. -/
structure Widget.IsRecordable (w : Widget) : Prop where
  width : w.width.CanShow
  height : w.height.CanShow
  align : ∃ u, w.align.checkHashable = .ok u

namespace Widget.IsRecordable

variable {w : Widget} (hw : w.IsRecordable)
include hw

theorem exists_ownFields : ∃ fs, w.ownFields = .ok fs := by
  obtain ⟨width, hwidth⟩ := hw.width.exists_toValue
  obtain ⟨height, hheight⟩ := hw.height.exists_toValue
  exact ⟨_, by rw [ownFields, hwidth, hheight]; rfl⟩

theorem exists_lastFields : ∃ fs, w.lastFields = .ok fs := by
  obtain ⟨anchor?, hanchor, -⟩ := exists_anchor? hw.align
  exact ⟨_, by rw [lastFields, hanchor]; rfl⟩

end Widget.IsRecordable

mutual

theorem Tree.exists_toValue : ∀ (t : Tree Widget) (_ : ∀ w ∈ t.toList, w.IsRecordable),
    ∃ v, Tree.toValue t = .ok v
  | .node w ts, h => by
    rw [Tree.toList, List.forall_mem_cons] at h
    obtain ⟨own, hown⟩ := h.1.exists_ownFields
    obtain ⟨last, hlast⟩ := h.1.exists_lastFields
    obtain ⟨children, hchildren⟩ := Forest.exists_toValues ts h.2
    exact ⟨_, by rw [Tree.toValue, hown, hchildren, hlast]; rfl⟩

theorem Forest.exists_toValues : ∀ (ts : List (Tree Widget))
    (_ : ∀ w ∈ Forest.toList ts, w.IsRecordable), ∃ vs, Forest.toValues ts = .ok vs
  | [], _ => ⟨[], rfl⟩
  | t :: ts, h => by
    rw [Forest.toList, List.forall_mem_append] at h
    obtain ⟨v, hv⟩ := Tree.exists_toValue t h.1
    obtain ⟨vs, hvs⟩ := Forest.exists_toValues ts h.2
    exact ⟨v :: vs, by rw [Forest.toValues, hv, hvs]; rfl⟩

end

/-! ## Parsed files -/

theorem Entry.IsSourced.isRecordable {e : Entry} (he : e.IsSourced) (file : Value) (id : Text)
    (parent : Value) : (e.toWidget file id parent).IsRecordable where
  width := he.width.canShow
  height := he.height.canShow
  align := by
    show ∃ u, e.align.checkHashable = .ok u
    rcases he.align with h | ⟨t, h⟩ <;> exact ⟨(), h ▸ rfl⟩

/-- **What is parsed can be written** into a document. -/
theorem ParsedFile.exists_toValue {placeholders file : Value} {source : Text} {p : ParsedFile}
    (hp : parse placeholders file source = .ok p) : ∃ v, p.toValue = .ok v := by
  obtain ⟨rfl, -⟩ := build_eq_ok.1 hp
  obtain ⟨vs, hvs⟩ := Forest.exists_toValues _ fun w hw => by
    obtain ⟨⟨id, e⟩, he, parent, rfl⟩ := exists_entry_of_mem_widgets hw
    exact (isSourced_of_mem_entries source (id, e) he).isRecordable file id parent
  exact ⟨_, by rw [toValue, hvs]; rfl⟩

/-! ## Imports -/

theorem Import.parse_of_parsed? {o : ImportOptions} {name source : Value} {p : ParsedFile}
    (h : parsed? o name source = some p) :
    ∃ t, ParsedFile.parse o.rootPlaceholders name t = .ok p := by
  unfold parsed? at h
  split at h
  · cases h
  · next q hq =>
    split at h <;> cases h
    cases hsource : sourceText source with
    | error f => rw [hsource] at hq; cases hq
    | ok t =>
      rw [hsource] at hq
      exact ⟨t, hq⟩

/-- **An import of sources** has a record. -/
theorem ImportOutcome.exists_toValue_ofSources (o : ImportOptions)
    (sources : List (Value × Value)) : ∃ v, (Import.ofSources o sources).toValue = .ok v := by
  have hfiles : ∀ p ∈ sources.filterMap fun s => Import.parsed? o s.1 s.2,
      ∃ v, p.toValue = .ok v := by
    intro p hp
    obtain ⟨s, -, hs⟩ := List.mem_filterMap.1 hp
    obtain ⟨t, ht⟩ := Import.parse_of_parsed? hs
    exact ParsedFile.exists_toValue ht
  obtain ⟨vs, hvs⟩ := exists_mapM hfiles
  unfold Import.ofSources
  split
  · exact ⟨_, rfl⟩
  · have hdone : (ImportOutcome.done (sources.filterMap fun s => Import.parsed? o s.1 s.2)).toValue =
        .ok (.record [("success", .truth true), ("files", .list vs), ("error", .null)]) := by
      rw [toValue, hvs]
      rfl
    exact ⟨_, hdone⟩

end LvglForest
