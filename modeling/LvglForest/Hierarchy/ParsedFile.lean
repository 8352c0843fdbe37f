import LvglForest.Disk.Path
import LvglForest.Fact.Extraction
import LvglForest.Hierarchy.Attachment
import LvglForest.Widget.Exchange

/-!
# Parsed files

The forest of widgets that a source file builds, with the declarations of the file. Any value can
be given as the name of the file; it must be a text where a screen or a heading is made of it. A
source text is taken to have no more lines than numbers can be written for, so that the facts in it
can always be reported.
-/

namespace LvglForest

/-- What a source file says. -/
structure ParsedFile where
  fileName : Value
  widgets : Forest Widget
  declarations : Table Value

namespace ParsedFile

/-- The parent of a root: none if its reference is a placeholder, otherwise the reference. -/
def rootParent (placeholders reference : Value) : Value :=
  if Attachment.isPlaceholder placeholders reference then .null else reference

/-- The widget of an identifier that was created. -/
def widget (file : Value) (entries : Table Entry) (id : Text) (parent : Value) : Widget :=
  (entries.get? id).elim { kind := .null, identifier := .text id } (·.toWidget file id parent)

mutual

/-- The widgets of a tree of identifiers. -/
def dressTree (file : Value) (entries : Table Entry) (parent : Value) : Tree Text → Tree Widget
  | .node id ts => .node (widget file entries id parent) (dressChildren file entries (.text id) ts)

/-- The widgets of trees of identifiers below one parent. -/
def dressChildren (file : Value) (entries : Table Entry) (parent : Value) :
    List (Tree Text) → Forest Widget
  | [] => []
  | t :: ts => dressTree file entries parent t :: dressChildren file entries parent ts

end

/-- The parsed file of a collection of facts. -/
def ofCollection (placeholders fileName : Value) (c : Collection) : ParsedFile where
  fileName
  widgets := (Attachment.forest c.entries).map fun t =>
    let reference := (c.entries.get? t.label).elim .null Entry.parent
    dressTree fileName c.entries (rootParent placeholders reference) t
  declarations := c.declarations

/-- The parsed file of facts, where no fault ends the work. -/
def ofFacts (placeholders fileName : Value) (fs : List Fact) : ParsedFile :=
  ofCollection placeholders fileName (Collection.ofFacts fs)

/-- The remarks that building a file from facts makes. -/
def remarks (placeholders fileName : Value) (fs : List Fact) : List LogRecord :=
  let c := Collection.ofFacts fs
  Collection.remarks fileName {} fs ++
    Attachment.remarks placeholders c.entries (Attachment.seeds c.entries) c.entries

/-- The parsed file of facts, or the fault that ends the work. -/
def build (placeholders fileName : Value) (fs : List Fact) : Except Fault ParsedFile :=
  let entries := (Collection.ofFacts fs).entries
  match Attachment.fault? placeholders entries (Attachment.seeds entries) entries with
  | some f => .error f
  | none => .ok (ofFacts placeholders fileName fs)

/-- Reads a source text, where no fault ends the work. -/
def ofSource (placeholders fileName : Value) (source : Text) : ParsedFile :=
  ofFacts placeholders fileName (Extraction.facts .standard source)

/-- Reads a source text, or finds the fault that ends the work. -/
def parse (placeholders fileName : Value) (source : Text) : Except Fault ParsedFile :=
  build placeholders fileName (Extraction.facts .standard source)

/-- The log of reading a source text. -/
def log (placeholders fileName : Value) (source : Text) : List LogRecord :=
  Extraction.log .standard source ++
    remarks placeholders fileName (Extraction.facts .standard source)

/-- The declared identifiers that no widget of the file has. -/
def unusedDeclarations (p : ParsedFile) : List Text :=
  p.declarations.keys.filter fun id => !(Forest.toList p.widgets).any (·.identifier.isText id)

/-- The file name as a path. -/
def path (p : ParsedFile) : Except Fault Path :=
  match p.fileName with
  | .text t => .ok (Path.ofText t)
  | v => .error (.notPath v.shape)

/-- The file as a screen, named by the file name without folders and suffix. -/
def toScreen (p : ParsedFile) : Except Fault Screen :=
  p.path.map fun path =>
    { name := .text (if path.stem.isEmpty then Screen.defaultName else path.stem)
      widgets := p.widgets }

/-- The record of a parsed file. -/
def toValue (p : ParsedFile) : Except Fault Value := do
  let widgets ← Forest.toValues p.widgets
  return .record [("file_name", p.fileName), ("widgets", .list widgets),
    ("declarations", .record p.declarations)]

end ParsedFile

end LvglForest
