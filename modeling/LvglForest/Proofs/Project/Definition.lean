import LvglForest.Proofs.Code.Generator
import LvglForest.Proofs.Project.Rendering

/-!
# The parts of a project

A project of screens is one header and one file for each screen, and each of these has a few parts:
the header declares variables and functions, and the file of a screen defines variables and one
function with the statements of its body. What is rendered are the files with the parts that are
generated (`Project.files_ofDrafts`), whenever there are drafts that no fault ends
(`Project.ofScreens_eq_ok`). The variables and statements of a screen are the lists that grow in
going along it (`Rendering.Draft.exists_generated`).
-/

namespace LvglForest

/-! ## Parts -/

/-- A function with its parameter. -/
def ExportOptions.signature (o : ExportOptions) (function : Text) : Text :=
  "void " ++ function ++ "(lv_obj_t * " ++ o.parentName ++ ")"

/-- The parts of the file of a screen: the symbol that names the file and the function, the
variables that are defined, and the statements of the function. -/
structure Definition where
  symbol : Text
  names : List Text
  body : List Statement

namespace Definition

/-- The function of a screen. -/
def function (o : ExportOptions) (f : Definition) : Text := f.symbol ++ o.functionSuffix

/-- The lines of the body of the function. -/
def bodyLines (f : Definition) : List Text :=
  let code := Text.join "\n" (f.body.map Statement.text)
  if code.isEmpty then [] else Text.splitOn (.char '\n') code

/-- The file with the given parts. -/
def file (o : ExportOptions) (f : Definition) : GeneratedFile where
  name := .text (f.symbol ++ ".cpp")
  code := Text.join "\n" <|
    [Rendering.Draft.includeLine o, []] ++
      (f.names.map fun id => ("lv_obj_t * " : Text) ++ id ++ " = NULL;") ++
      [[], o.signature (f.function o) ++ (" \x7b" : Text)] ++
      Rendering.Draft.openingLines o ++
      (f.bodyLines.map fun line => if line.isEmpty then [] else o.detail.indent ++ line) ++
      [("\x7d" : Text), []]

end Definition

/-- The parts of a header: the variables and the functions that it declares. -/
structure Declaration where
  names : List Text
  functions : List Text

/-- The header with the given parts, in which a line includes the library. -/
def Declaration.file (o : ExportOptions) (library : Text) (h : Declaration) : GeneratedFile where
  name := o.headerName
  code := Text.join "\n" <|
    [("#pragma once" : Text), library, [], "// Global widget variables"] ++
      (h.names.map fun id => ("extern lv_obj_t * " : Text) ++ id ++ ";") ++ [[]] ++
      h.functions.map (fun f => o.signature f ++ (";" : Text)) ++ [[]]

/-- The parts of the header for the files of screens. -/
def Declaration.ofDefinitions (o : ExportOptions) (fs : List Definition) : Declaration where
  names := Text.distinct (fs.flatMap Definition.names)
  functions := fs.map (Definition.function o)

namespace Rendering

/-- The parts of the file of a draft. -/
def Draft.definition (d : Draft) : Definition := ⟨d.symbol, d.identifiers, d.emissions.statements⟩

/-- The parts of a draft without a fault are the lists that going along its screen leaves. -/
theorem Draft.exists_generated {o : ExportOptions} {s : Screen} {d : Draft} (hd : d.IsOf o s)
    (hfault : d.emissions.fault? = none) : ∃ g : Generator,
      (Forest.generate o.detail o.parentName [] 0 s.widgets).run {} = .ok () g ∧
        d.definition = ⟨d.symbol, Text.distinct g.identifiers, g.statements⟩ ∧
        d.emissions.skips = g.skips :=
  ⟨_, Forest.run_generate hd.emissions.symm hfault, rfl, rfl⟩

theorem header_eq (o : ExportOptions) (library : Text) (ds : List Draft) :
    header o library ds =
      (Declaration.ofDefinitions o (ds.map Draft.definition)).file o library := by
  rw [Declaration.file, Declaration.ofDefinitions, List.map_map, List.map_map, List.flatMap_map]
  rfl

end Rendering

/-! ## Projects -/

namespace Project

/-- The files of a project are those with the parts of its drafts. -/
theorem files_ofDrafts (o : ExportOptions) (library : Text) (ds : List Rendering.Draft) :
    (ofDrafts o library ds).files =
      (Declaration.ofDefinitions o (ds.map Rendering.Draft.definition)).file o library ::
        (ds.map Rendering.Draft.definition).map (Definition.file o) := by
  rw [ofDrafts, Rendering.header_eq, List.map_map]
  rfl

/-- Screens are rendered if there are drafts that no fault ends and a line that includes the
library, and if the files of the drafts can include the header. -/
theorem ofScreens_eq_ok {o : ExportOptions} {screens : List Screen} {p : Project} :
    ofScreens o screens = .ok p ↔ ∃ library ds, o.includeLine = .text library ∧
      (ds ≠ [] → o.ShowsHeader) ∧ Rendering.drafts o [] screens = ds.map .ok ∧
      (∀ d ∈ ds, d.emissions.fault? = none) ∧ ofDrafts o library ds = p := by
  unfold ofScreens
  constructor
  · intro h
    split at h
    · cases h
    · next ds library hds hline =>
      obtain ⟨hdrafts, hfaults⟩ := Rendering.settled_eq_ok.1 hds
      cases h
      refine ⟨library, ds, hline, fun hne => ?_, hdrafts, fun d hd => ?_, rfl⟩
      · obtain ⟨d, hd⟩ := List.exists_mem_of_ne_nil ds hne
        exact (Rendering.Draft.fault?_eq_none_iff.1 (hfaults d hd)).1
      · exact (Rendering.Draft.fault?_eq_none_iff.1 (hfaults d hd)).2
    · cases h
  · rintro ⟨library, ds, hline, hheader, hdrafts, hfaults, rfl⟩
    have hsettled := Rendering.settled_eq_ok.2 ⟨hdrafts, fun d hd =>
      Rendering.Draft.fault?_eq_none_iff.2 ⟨hheader (List.ne_nil_of_mem hd), hfaults d hd⟩⟩
    rw [hsettled, hline]

end Project

end LvglForest
