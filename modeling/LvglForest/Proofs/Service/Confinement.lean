import LvglForest.Proofs.Project.Confinement
import LvglForest.Proofs.Service.Answer

/-!
# Requests keep off the disk

Of all requests only a posted export that names a folder changes the disk, and only where the
settings allow it; what it changes is the folder and the files of the project in it
(`Service.respond_confined`).
-/

namespace LvglForest.Service

/-- The name of the header of an export is one part of a path. -/
theorem ofText_headerName : Path.ofText "ui.h" = ⟨[], ["ui.h"]⟩ := by cbv

/-- A posted export that names a folder, on a service that writes to the disk. -/
structure WritesTo (w : Framework) (s : Settings) (r : Request) (folder : Text) : Prop where
  allowed : s.diskExport = true
  verb : r.verb = "POST"
  path : r.target.path = "/api/export"
  given : ∃ fs : Table Value, payload w r = .ok (.record fs) ∧
    fs.get? "output_dir" = some (.text folder)
  ne_nil : folder ≠ []

section Exports

variable (s : Settings) (d : Disk)

/-- Screens that are exported change the disk only in a folder that is given. -/
theorem serveScreens_confined (folder : Value) (screens : List Screen) :
    (serveScreens s d folder screens).disk = d ∨
      ∃ t, s.diskExport = true ∧ folder = .text t ∧ t ≠ [] ∧
        Export.Confined "ui.h" (Path.ofText t) d (serveScreens s d folder screens).disk := by
  unfold serveScreens
  simp only
  split
  · next hfolder =>
    split
    · next hallowed =>
      have hrun := Export.run_confined .standard (o := { detail := s.detail }) rfl
        ofText_headerName folder d (.list (screens.map .screen))
      have hgiven : ∀ {t}, folder = .text t → t ≠ [] := by
        rintro t rfl rfl
        cases hfolder
      split
      all_goals
        next hresult =>
        rw [hresult] at hrun
        exact hrun.imp id fun ⟨t, ht, hconfined⟩ => ⟨t, hallowed, ht, hgiven ht, hconfined⟩
    · exact .inl rfl
  · exact .inl rfl

theorem serveExport_confined (v : Value) :
    (serveExport s d v).disk = d ∨
      ∃ (fs : Table Value) (t : Text), s.diskExport = true ∧ v = .record fs ∧
        fs.get? "output_dir" = some (.text t) ∧ t ≠ [] ∧
          Export.Confined "ui.h" (Path.ofText t) d (serveExport s d v).disk := by
  unfold serveExport
  split
  · exact .inl rfl
  · next values hfield =>
    cases v with
    | record fs =>
      split
      · next screens hscreens =>
        -- A record without the field is answered as one where it is null.
        have hfolder : ((Value.record fs).field "output_dir").toOption.getD .null =
            (Table.get? "output_dir" fs).getD .null := rfl
        refine (serveScreens_confined s d _ screens).imp id ?_
        rintro ⟨t, hallowed, ht, hne, hconfined⟩
        refine ⟨fs, t, hallowed, rfl, ?_, hne, hconfined⟩
        rw [hfolder] at ht
        cases hget : Table.get? "output_dir" fs with
        | none => rw [hget] at ht; cases ht
        | some v => rw [hget] at ht; exact congrArg some ht
      · split <;> exact .inl rfl
    | _ => cases hfield
  · exact .inl rfl

end Exports

theorem disk_serveImport (d : Disk) (v : Value) : (serveImport d v).disk = d := by
  unfold serveImport
  split
  · rfl
  · split <;> rfl
  · rfl

/-- **Requests keep off the disk.** Where the settings do not allow it no request changes the disk,
and where they do, only a posted export changes it that names a folder: there it makes the folder
with those above it, and makes and replaces files directly in it, each the header or the file of a
screen, whatever the screens are called and whether the export succeeds or not. -/
theorem respond_confined {w : Framework} (hw : w.IsLawful) (s : Settings) (d : Disk)
    (r : Request) :
    (s.diskExport = false → (respond w s d r).disk = d) ∧
      ((respond w s d r).disk ≠ d → ∃ folder, WritesTo w s r folder ∧
        Export.Confined "ui.h" (Path.ofText folder) d (respond w s d r).disk) := by
  have hall : (respond w s d r).disk = d ∨ ∃ folder, WritesTo w s r folder ∧
      Export.Confined "ui.h" (Path.ofText folder) d (respond w s d r).disk := by
    cases hlead : w.lead r with
    | error code =>
      rw [respond, hlead]
      exact .inl rfl
    | ok route =>
      obtain ⟨hpath, htakes⟩ := hw.path_of_lead hlead
      rw [respond_eq_serve hlead]
      unfold serve
      split
      · exact .inl rfl
      · next hverb =>
        cases route with
        | exporting =>
          cases hpayload : payload w r with
          | error code => exact .inl rfl
          | ok v =>
            refine (serveExport_confined s d v).imp id ?_
            rintro ⟨fs, t, hallowed, rfl, hget, hne, hconfined⟩
            have hpost : r.verb = "POST" := by
              have hmethods : r.verb = "POST" ∨ r.verb = "OPTIONS" := by
                simpa [Route.takes, Route.methods] using htakes
              exact hmethods.resolve_right hverb
            exact ⟨t, ⟨hallowed, hpost, hpath _ rfl, ⟨fs, hpayload, hget⟩, hne⟩, hconfined⟩
        | importing =>
          left
          cases payload w r with
          | error code => rfl
          | ok v => exact disk_serveImport d v
        | page =>
          left
          dsimp only
          split
          · rfl
          · cases w.form r <;> rfl
        | asset => exact .inl rfl
  refine ⟨fun hs => hall.resolve_right ?_, hall.resolve_left⟩
  rintro ⟨folder, hwrites, -⟩
  exact Bool.false_ne_true (hs.symm.trans hwrites.allowed)

/-- An export into a folder of a screen whose name would lead out of it. -/
def strayScreen : Text :=
  "\x7b\"screens\":[\x7b\"name\":\"../../stray\"\x7d],\"output_dir\":\"out/ui\"\x7d"

theorem respond_confined_strayScreen :
    let r := posting "/api/export" strayScreen
    (respond .standard {} {} r).disk = {} ∧
      (respond .standard { diskExport := true } {} r).disk ≠ {} ∧
        ∃ folder, WritesTo .standard { diskExport := true } r folder ∧
          Export.Confined "ui.h" (Path.ofText folder) {}
            (respond .standard { diskExport := true } {} r).disk := by
  intro r
  have hwritten : (respond .standard { diskExport := true } {} r).disk.found?
      ["out", "ui", "______stray.cpp"] ≠ none := by
    rw [show r = posting "/api/export" strayScreen from rfl, strayScreen]
    repeat rw [Text.ofString_ofList]
    decide +kernel
  have hchanged : (respond .standard { diskExport := true } {} r).disk ≠ {} := by
    intro h
    rw [h] at hwritten
    exact hwritten rfl
  exact ⟨(respond_confined Framework.isLawful_standard {} {} r).1 rfl, hchanged,
    (respond_confined Framework.isLawful_standard { diskExport := true } {} r).2 hchanged⟩

end LvglForest.Service
