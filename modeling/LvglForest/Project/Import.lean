import LvglForest.Hierarchy.ParsedFile
import LvglForest.Project.Scan
import LvglForest.Value.Write

/-!
# Imports

Source files become parsed files, each by itself. A file without widgets is left out, and so is one
that cannot be read. An import of a project scans its folder first and takes the main files, or all
source files if there is no main file.
-/

namespace LvglForest

/-- The result of an import: the files with widgets, or why there is none. -/
inductive ImportOutcome where
  | done (files : List ParsedFile)
  | refused (message : Text)

namespace ImportOutcome

/-- The record of a result. -/
def toValue (r : ImportOutcome) : Except Fault Value :=
  match r with
  | .refused message =>
    .ok (.record [("success", .truth false), ("files", .list []), ("error", .text message)])
  | .done files => do
    let vs ← files.mapM ParsedFile.toValue
    return .record [("success", .truth true), ("files", .list vs), ("error", .null)]

end ImportOutcome

namespace Import

/-- There is no source to take widgets from. -/
def noCodeMessage : Text := "No LVGL code found in the project"

/-- No source has widgets. -/
def noWidgetsMessage : Text := "Could not parse any LVGL widgets from the files"

/-! ## Sources in memory -/

/-- The source text that a value gives: a value that does not count as given is an empty text. -/
def sourceText (v : Value) : Except Fault Text :=
  match v with
  | .text t => .ok t
  | v => if v.isTrue then .error (.noMember v.shape.name "strip") else .ok []

/-- The parsed file of a source, if it has widgets. -/
def parsed? (o : ImportOptions) (name source : Value) : Option ParsedFile :=
  match (sourceText source).bind (ParsedFile.parse o.rootPlaceholders name) with
  | .error _ => none
  | .ok p => if p.widgets.isEmpty then none else some p

/-- The record of the import of one source. -/
def outcomeRecord (p : ParsedFile) : LogRecord where
  level := .info
  source := .hierarchy
  text :=
    let name := p.fileName.display.toOption.getD []
    if p.widgets.isEmpty then name ++ " 中没有识别到控件，已跳过"
    else
      name ++ ": " ++ Decimal.ofNat (Forest.toList p.widgets).length ++ " 个控件, 层级深度 " ++
        Decimal.ofNat (Forest.depth p.widgets)

/-- The record of the import of one source that fails. -/
def failureRecord (name : Value) (f : Fault) : LogRecord where
  level := .error
  source := .hierarchy
  text := "Error parsing " ++ name.display.toOption.getD [] ++ ": " ++ f.message

/-- The log of the import of one source. -/
def sourceLog (o : ImportOptions) (name source : Value) : List LogRecord :=
  match sourceText source with
  | .error f => [failureRecord name f]
  | .ok t =>
    ParsedFile.log o.rootPlaceholders name t ++
      match ParsedFile.parse o.rootPlaceholders name t with
      | .error f => [failureRecord name f]
      | .ok p => [outcomeRecord p]

/-- The import of sources given by name. -/
def ofSources (o : ImportOptions) (sources : List (Value × Value)) : ImportOutcome :=
  match sources.filterMap fun (name, source) => parsed? o name source with
  | [] => .refused noWidgetsMessage
  | files => .done files

/-- The log of an import of sources. -/
def sourcesLog (o : ImportOptions) (sources : List (Value × Value)) : List LogRecord :=
  sources.flatMap fun (name, source) => sourceLog o name source

/-! ## Files -/

/-- The sources at paths that can be read, with the records of the others. -/
def readSources (o : ImportOptions) (d : Disk) :
    List Value → Except Fault (List (Value × Value)) × List LogRecord
  | [] => (.ok [], [])
  | .text path :: paths =>
    match (Encoding.nameOf o.encoding).bind fun encoding => d.read encoding path with
    | .ok t =>
      let (sources, log) := readSources o d paths
      (sources.map ((.text path, .text t) :: ·), log)
    | .error f =>
      if f.isUnreadable then
        let (sources, log) := readSources o d paths
        (sources, f.unreadableRecord path :: log)
      else (.error f, [])
  | v :: _ => (.error (.notPath v.shape), [])

/-- The import of the files at paths, with its log. -/
def ofFiles (o : ImportOptions) (d : Disk) (paths : List Value) :
    Except Fault ImportOutcome × List LogRecord :=
  match readSources o d paths with
  | (.error f, log) => (.error f, log)
  | (.ok sources, log) => (.ok (ofSources o sources), log ++ sourcesLog o sources)

/-! ## Projects -/

/-- The files of a scan that are imported. -/
def chosenFiles (o : ImportOptions) (s : Scan) : List Text :=
  if (s.mainFiles o).isEmpty then s.files else s.mainFiles o

/-- The import of a scanned project, with its log. -/
def ofScan (o : ImportOptions) (d : Disk) (s : Scan) :
    Except Fault ImportOutcome × List LogRecord :=
  if s.hasMarker o then
    let paths := chosenFiles o s
    let (outcome, log) := ofFiles o d (paths.map .text)
    (outcome,
      { level := .info, source := .importing
        text := "从 " ++ (Path.ofText s.root).name ++ " 导入 " ++ Decimal.ofNat paths.length ++
          " 个文件" } :: log)
  else (.ok (.refused noCodeMessage), [])

/-- The import of the project in the folder at a path, with its log. It never fails: a fault becomes
a refusal. -/
def ofProject (o : ImportOptions) (d : Disk) (path : Text) : ImportOutcome × List LogRecord :=
  let failed (f : Fault) : ImportOutcome × List LogRecord :=
    (.refused ("导入失败: " ++ f.message),
      [{ level := .error, source := .importing
         text := "导入 " ++ path ++ " 失败: " ++ f.message }])
  match Scan.run o d path with
  | (.error f, scanLog) =>
    let (outcome, log) := failed f
    (outcome, scanLog ++ log)
  | (.ok s, scanLog) =>
    match ofScan o d s with
    | (.ok outcome, log) => (outcome, scanLog ++ log)
    | (.error f, log) =>
      let (outcome, failure) := failed f
      (outcome, scanLog ++ log ++ failure)

end Import

end LvglForest
