import LvglForest.Disk.Basic
import LvglForest.Hierarchy.Attachment
import LvglForest.Text.Lower

/-!
# Scans

A scan of a project folder finds its source files: the files with certain extensions, in the order
of a walk that takes the entries of each folder by name and goes into every folder except those of
certain names. It says which of the files hold marks of LVGL, and which of these are main files. A
folder or a file that cannot be read is logged and passed over.
-/

namespace LvglForest

/-- The choices of an import. They are meant to be lists of texts, but any value can be given for
them: what a value holds is asked where a choice matters, and one that holds nothing is refused
there. -/
structure ImportOptions where
  /-- The parent names that stand for the parent that a caller passes in. -/
  rootPlaceholders : Value := Attachment.defaultPlaceholders
  sourceExtensions : Value := .texts [".cpp", ".c", ".ino", ".h", ".hpp"]
  /-- The extensions of main files. -/
  mainExtensions : Value := .texts [".cpp", ".ino"]
  skipFolders : Value := .texts ["node_modules", ".git", "build", "dist"]
  /-- Texts of which a file with LVGL code holds at least one. -/
  markers : Value := .texts ["lv_obj", "lvgl"]
  encoding : Value := .text Encoding.utf8.name

/-- A file that a scan comes upon, with what is read from it, or the fault that is met there. -/
structure SourceFile where
  path : Text
  extension : Text
  content : Except Fault Text

namespace SourceFile

/-- Whether the file holds a marker. -/
def marked? (o : ImportOptions) (f : SourceFile) : Except Fault Bool := do
  let t ← f.content
  let markers ← o.markers.items
  Value.holdsAny (.text t) markers

/-- Whether the file is a main file. -/
def main? (o : ImportOptions) (f : SourceFile) : Except Fault Bool := do
  let isMarked ← f.marked? o
  if isMarked then o.mainExtensions.holds (.text f.extension) else return false

/-- Whether the file can be read and holds a marker. -/
def isMarked (o : ImportOptions) (f : SourceFile) : Bool := (f.marked? o).toOption.getD false

/-- Whether the file can be read and is a main file. -/
def isMain (o : ImportOptions) (f : SourceFile) : Bool := (f.main? o).toOption.getD false

end SourceFile

/-- Faults of reading that leave out one file and do not end the work. -/
def Fault.isUnreadable (f : Fault) : Bool := f.kind = .disk || f.kind = .undecodable

/-- The record of a file that cannot be read. -/
def Fault.unreadableRecord (path : Text) (f : Fault) : LogRecord where
  level := .error
  source := .importing
  text := "无法读取 " ++ path ++ ": " ++ f.message

/-- What a scan of a folder finds. -/
structure Scan where
  root : Text
  found : List SourceFile := []

namespace Scan

/-- The path of an entry of a folder. -/
def entryPath (folder name : Text) : Text :=
  if folder.isEmpty ∨ folder.getLast? = some (.char '/') then folder ++ name
  else folder ++ "/" ++ name

/-- What is found in the entries of a folder, the entries by name. -/
def byName (found : List (Text × List SourceFile)) : List SourceFile :=
  (found.mergeSort fun a b => Text.le a.1 b.1).flatMap (·.2)

/-- The source file at a path, if the extension of its name is that of one, with what is read from
it in the chosen encoding. -/
def ofFile (o : ImportOptions) (path name : Text) (read : Text → Except Fault Text) :
    List SourceFile :=
  let extension := Text.lower (Path.extension name)
  match o.sourceExtensions.holds (.text extension) with
  | .error fault => [⟨path, extension, .error fault⟩]
  | .ok false => []
  | .ok true => [⟨path, extension, (Encoding.nameOf o.encoding).bind read⟩]

mutual

/-- The source files that one entry of a folder stands for. A folder whose path is too long cannot
be told from a file, and nothing is read from either. -/
def ofEntry (o : ImportOptions) (folder name : Text) : DiskNode → List SourceFile
  | .file bytes =>
    let path := entryPath folder name
    ofFile o path name fun encoding =>
      if Disk.isTooLong path then .error (.disk .nameTooLong path) else Disk.textOf encoding bytes
  | .folder entries =>
    let path := entryPath folder name
    if Disk.isTooLong path then ofFile o path name fun _ => .error (.disk .nameTooLong path)
    else
      match o.skipFolders.holds (.text name) with
      | .error fault => [⟨path, [], .error fault⟩]
      | .ok true => []
      | .ok false => byName (ofEntries o path entries)

/-- The source files of each entry of a folder, with the entry's name. -/
def ofEntries (o : ImportOptions) (folder : Text) :
    List (Text × DiskNode) → List (Text × List SourceFile)
  | [] => []
  | (name, node) :: entries => (name, ofEntry o folder name node) :: ofEntries o folder entries

end

/-- The fault that ends the reading of files, if there is one, and the records of the files before
it that cannot be read. -/
def review (o : ImportOptions) : List SourceFile → Option Fault × List LogRecord
  | [] => (none, [])
  | f :: found =>
    match f.main? o with
    | .ok _ => review o found
    | .error fault =>
      if fault.isUnreadable then
        let (ending, log) := review o found
        (ending, fault.unreadableRecord f.path :: log)
      else (some fault, [])

/-- A scan of the folder at a path, with its log. -/
def run (o : ImportOptions) (d : Disk) (path : Text) : Except Fault Scan × List LogRecord :=
  match d.entries path with
  | .ok entries =>
    let found := byName (ofEntries o path entries)
    match review o found with
    | (some fault, log) => (.error fault, log)
    | (none, log) => (.ok { root := path, found }, log)
  | .error fault =>
    if fault.isUnreadable then
      (.ok { root := path },
        [{ level := .error, source := .importing
           text := "Error scanning directory " ++ path ++ ": " ++ fault.message }])
    else (.error fault, [])

/-- The paths of the source files. -/
def files (s : Scan) : List Text := s.found.map SourceFile.path

/-- The paths of the main files. -/
def mainFiles (o : ImportOptions) (s : Scan) : List Text :=
  (s.found.filter (·.isMain o)).map SourceFile.path

/-- Whether some file holds a marker. -/
def hasMarker (o : ImportOptions) (s : Scan) : Bool := s.found.any (·.isMarked o)

end Scan

end LvglForest
