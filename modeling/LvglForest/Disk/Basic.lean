import LvglForest.Disk.Encoding
import LvglForest.Disk.Path
import LvglForest.Table
import LvglForest.Text.Lines

/-!
# Disks

A disk is a tree of folders and files without links, and without permissions: all of it may be read
and changed. A path is followed part by part: each part but the last must lead to a folder, a single
dot stays where it is, and two dots lead to the folder above. What cannot be followed or done is a
fault that says why and names the path as it was given.

Operations that change a disk return the changed disk; one that fails half-way returns what it
changed together with the fault.
-/

namespace LvglForest

/-- A file with its bytes, or a folder with what is in it. -/
inductive DiskNode where
  | file (bytes : List UInt8)
  | folder (entries : List (Text × DiskNode))

namespace DiskNode

/-- What is found under the given names, one inside the other. -/
def at? : List Text → DiskNode → Option DiskNode
  | [], node => some node
  | name :: names, .folder entries => (Table.get? name entries).bind (at? names)
  | _ :: _, .file _ => none

/-- Puts something under the given names. Folders that are missing on the way are made; nothing is
put below a file. -/
def put : List Text → DiskNode → DiskNode → DiskNode
  | [], new, _ => new
  | name :: names, new, .folder entries =>
    .folder (Table.put name (put names new ((Table.get? name entries).getD (.folder []))) entries)
  | _ :: _, _, .file bytes => .file bytes

mutual

/-- The files below, each with the names that lead to it. -/
def files : DiskNode → List (List Text × List UInt8)
  | .file bytes => [([], bytes)]
  | .folder entries => entryFiles entries

/-- The files of the entries of a folder. -/
def entryFiles : List (Text × DiskNode) → List (List Text × List UInt8)
  | [] => []
  | (name, node) :: entries =>
    (files node).map (fun (names, bytes) => (name :: names, bytes)) ++ entryFiles entries

end

end DiskNode

/-- A disk and the folder from which relative paths start. -/
structure Disk where
  top : DiskNode := .folder []
  working : List Text := []

/-- The most bytes in a name. -/
def Disk.nameLimit : Nat := 255

/-- The most bytes in a path. -/
def Disk.pathLimit : Nat := 4095

namespace Disk

/-- Whether a path has too many bytes to be followed. -/
def isTooLong (path : Text) : Bool := pathLimit < ((Utf8.encode? path).getD []).length

/-- What is at a place. -/
def at? (place : List Text) (d : Disk) : Option DiskNode := d.top.at? place

/-- The disk with something put at a place. -/
def put (place : List Text) (node : DiskNode) (d : Disk) : Disk :=
  { d with top := DiskNode.put place node d.top }

/-! ## Following paths -/

/-- The place that the parts of a path lead to from a folder. Nothing needs to be there. -/
def follow (d : Disk) : List Text → List Text → Except DiskCause (List Text)
  | place, [] => .ok place
  | place, part :: parts =>
    match d.at? place with
    | none => .error .missing
    | some (.file _) => .error .notDirectory
    | some (.folder _) =>
      if part = "." then follow d place parts
      else if part = ".." then follow d place.dropLast parts
      else if nameLimit < ((Utf8.encode? part).getD []).length then .error .nameTooLong
      else follow d (place ++ [part]) parts

/-- The parts of a path that are followed. A slash at the end stands for a dot after it. -/
def route (path : Text) : List Text :=
  let parts := (Text.splitOn (.char '/') path).filter fun part => !part.isEmpty
  if path.getLast? = some (.char '/') then parts ++ [("." : Text)] else parts

/-- The place that a path leads to. A path must have bytes, not too many, and none of them zero. -/
def locate (d : Disk) (path : Text) : Except Fault (List Text) :=
  match path.find? fun p => (Utf8.encodePoint? p).isNone with
  | some p => .error (.unencodable Encoding.utf8.name p)
  | none =>
    if .char '\x00' ∈ path then .error .nullByte
    else if path.isEmpty then .error (.disk .missing path)
    else if isTooLong path then .error (.disk .nameTooLong path)
    else
      let start := if path.head? = some (.char '/') then [] else d.working
      match d.follow start (route path) with
      | .ok place => .ok place
      | .error cause => .error (.disk cause path)

/-- What a path leads to. -/
def find (d : Disk) (path : Text) : Except Fault DiskNode :=
  match d.locate path with
  | .error f => .error f
  | .ok place =>
    match d.at? place with
    | some node => .ok node
    | none => .error (.disk .missing path)

/-! ## Reading -/

/-- The entries of a folder. -/
def entries (d : Disk) (path : Text) : Except Fault (List (Text × DiskNode)) :=
  match d.find path with
  | .error f => .error f
  | .ok (.folder entries) => .ok entries
  | .ok (.file _) => .error (.disk .notDirectory path)

/-- The bytes of a file. -/
def bytes (d : Disk) (path : Text) : Except Fault (List UInt8) :=
  match d.find path with
  | .error f => .error f
  | .ok (.file bytes) => .ok bytes
  | .ok (.folder _) => .error (.disk .isDirectory path)

/-- The text that bytes hold, with every line end as a line feed. -/
def textOf (encoding : Text) (bytes : List UInt8) (codecs : Codecs := .standard) :
    Except Fault Text :=
  match codecs.get encoding with
  | .error f => .error f
  | .ok c => (c.decode bytes).map Text.unifyNewlines

/-- The text of a file. -/
def read (d : Disk) (encoding path : Text) (codecs : Codecs := .standard) : Except Fault Text :=
  match d.bytes path with
  | .error f => .error f
  | .ok bytes => textOf encoding bytes codecs

/-! ## Writing -/

/-- Makes a folder inside one that exists. -/
def makeFolder (d : Disk) (path : Text) : Except Fault Disk :=
  match d.locate path with
  | .error f => .error f
  | .ok place =>
    match d.at? place with
    | some _ => .error (.disk .exists path)
    | none => .ok (d.put place (.folder []))

/-- Makes a folder unless it is there. -/
def settleFolder (d : Disk) (path : Text) : Except Fault Disk :=
  match d.makeFolder path with
  | .ok d => .ok d
  | .error (.disk cause p) =>
    match d.find path with
    | .ok (.folder _) => .ok d
    | _ => .error (.disk cause p)
  | .error f => .error f

/-- Makes a folder with the folders above it, unless they are there. The parts of the path are given
from the last to the first. -/
def settleFolders (root : Text) : List Text → Disk → Disk × Option Fault
  | [], d =>
    match d.settleFolder (Path.toText ⟨root, []⟩) with
    | .ok d => (d, none)
    | .error f => (d, some f)
  | part :: above, d =>
    let path := Path.toText ⟨root, (part :: above).reverse⟩
    let settled (d : Disk) : Disk × Option Fault :=
      match d.settleFolder path with
      | .ok d => (d, none)
      | .error f => (d, some f)
    match d.makeFolder path with
    | .error (.disk .missing _) =>
      match settleFolders root above d with
      | (d, none) => settled d
      | failed => failed
    | _ => settled d

/-- Writes a file: makes it if it is missing, and replaces what is in it. -/
def writeBytes (d : Disk) (path : Text) (bytes : List UInt8) : Except Fault Disk :=
  match d.locate path with
  | .error f => .error f
  | .ok place =>
    match d.at? place with
    | some (.folder _) => .error (.disk .isDirectory path)
    | _ => .ok (d.put place (.file bytes))

/-- The bytes of a text in the encoding of a name. -/
def bytesOf (encoding t : Text) (codecs : Codecs := .standard) : Except Fault (List UInt8) :=
  match codecs.get encoding with
  | .error f => .error f
  | .ok c => c.encode t

/-- Writes a text into a file. A text without bytes leaves the file empty. -/
def write (d : Disk) (encoding path t : Text) (codecs : Codecs := .standard) :
    Disk × Option Fault :=
  match d.writeBytes path [] with
  | .error f => (d, some f)
  | .ok emptied =>
    match bytesOf encoding t codecs with
    | .error f => (emptied, some f)
    | .ok bytes =>
      match d.writeBytes path bytes with
      | .error f => (emptied, some f)
      | .ok d => (d, none)

end Disk

end LvglForest
