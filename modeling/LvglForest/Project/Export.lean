import LvglForest.Disk.Basic
import LvglForest.Project.Rendering

/-!
# Exports

An export renders a project and then writes its files into a folder, which is made together with
the folders above it if they are missing. Files of the same names are replaced. The files are
written one after the other, so a failure leaves those before it on the disk. Any codecs can be
known to an export.
-/

namespace LvglForest

/-- The result of an export: the project that was written, or why none was. -/
inductive ExportOutcome where
  | done (project : Project)
  | refused (message : Text)

/-- The record of a generated file. -/
def GeneratedFile.toValue (f : GeneratedFile) : Value :=
  .record [("file_name", f.name), ("code", .text f.code)]

/-- The record of a report. -/
def Issue.toValue (i : Issue) : Value :=
  .record [("path", .text i.path), ("message", .text i.message)]

/-- The record of a successful export. -/
def Project.toValue (p : Project) : Value :=
  .record [("success", .truth true), ("generated_files", .list (p.files.map GeneratedFile.toValue)),
    ("issues", .list (p.issues.map Issue.toValue)), ("error", .null)]

/-- The record of a result. -/
def ExportOutcome.toValue : ExportOutcome → Value
  | .done p => p.toValue
  | .refused message =>
    .record [("success", .truth false), ("generated_files", .list []), ("issues", .list []),
      ("error", .text message)]

namespace Export

/-- The disk after some work, the fault that ended the work if there was one, and the log. -/
structure Progress where
  disk : Disk
  fault? : Option Fault := none
  log : List LogRecord := []

/-- The path of a file in a folder. -/
def filePath (folder : Path) (name : Text) : Text := (folder.join (.ofText name)).toText

/-- The path of a generated file in a folder, and the name of the encoding it is written in. -/
def place (o : ExportOptions) (folder : Path) (f : GeneratedFile) : Except Fault (Text × Text) :=
  match f.name with
  | .text name => (Encoding.nameOf o.encoding).map (filePath folder name, ·)
  | v => .error (.notFileName v.shape)

/-- Writes files into a folder up to the first fault. -/
def writeFiles (o : ExportOptions) (folder : Path) (d : Disk) (files : List GeneratedFile)
    (codecs : Codecs := .standard) : Progress :=
  match files with
  | [] => { disk := d }
  | f :: fs =>
    match place o folder f with
    | .error fault => { disk := d, fault? := some fault }
    | .ok (path, encoding) =>
      match d.write encoding path f.code codecs with
      | (d, some fault) => { disk := d, fault? := some fault }
      | (d, none) =>
        let rest := writeFiles o folder d fs codecs
        { rest with
          log := { level := .info, source := .exporting, text := "已写出 " ++ path } :: rest.log }

/-- Writes a project into the folder at a path. -/
def write (o : ExportOptions) (folder : Text) (d : Disk) (p : Project)
    (codecs : Codecs := .standard) : Progress :=
  let path := Path.ofText folder
  match Disk.settleFolders path.root path.parts.reverse d with
  | (d, some fault) => { disk := d, fault? := some fault }
  | (d, none) => writeFiles o path d p.files codecs

/-- Writes a project into the folder that a value names. -/
def writeTo (o : ExportOptions) (folder : Value) (d : Disk) (p : Project)
    (codecs : Codecs := .standard) : Progress :=
  match folder with
  | .text t => write o t d p codecs
  | v => { disk := d, fault? := some (.notPath v.shape) }

/-- Faults that are reported as a refusal. All others end the export without a result. -/
def isReported (f : Fault) : Bool := f.kind = .disk || f.kind = .wrongType

/-- The result of an export that a fault ended, with its record. -/
def refusal (folder : Value) (f : Fault) : Except Fault ExportOutcome × List LogRecord :=
  if isReported f then
    (.ok (.refused ("导出失败: " ++ f.message)),
      [{ level := .error, source := .exporting
         text := "导出到 " ++ folder.display.toOption.getD [] ++ " 失败: " ++ f.message }])
  else (.error f, [])

/-- The export of a subject into a folder: the disk after it, its result and its log. -/
def run (o : ExportOptions) (folder : Value) (d : Disk) (s : Subject)
    (codecs : Codecs := .standard) : Disk × Except Fault ExportOutcome × List LogRecord :=
  match Project.ofSubject o s with
  | .error f =>
    let (outcome, log) := refusal folder f
    (d, outcome, Project.log o s ++ log)
  | .ok p =>
    let written := writeTo o folder d p codecs
    match written.fault? with
    | none => (written.disk, .ok (.done p), Project.log o s ++ written.log)
    | some f =>
      let (outcome, log) := refusal folder f
      (written.disk, outcome, Project.log o s ++ written.log ++ log)

end Export

end LvglForest
