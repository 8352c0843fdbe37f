import LvglForest.Page.Basic
import LvglForest.Project.Export
import LvglForest.Project.Import
import LvglForest.Service.Framework

/-!
# The service

What is answered to requests that a web framework leads to a route: the page, the import of sources
and the export of screens. A fault that no answer is worded for becomes the status 500. The disk
changes only by exports into a folder, and only where the settings allow them.
-/

namespace LvglForest

/-- The settings of the service. -/
structure Settings where
  detail : Detail := .verbose
  diskExport : Bool := false

/-- An answer. A page may come with a status that says that it cannot be sent. -/
inductive Response where
  | status (code : Nat)
  | document (code : Nat) (v : Value)
  | page (code : Nat) (p : Page)

namespace Response

/-- Something failed that no answer is worded for. -/
def failure : Response := .status 500

/-- An answer that holds a page. A page with a surrogate cannot be sent. -/
def ofPage (p : Page) : Response :=
  .page (if p.write.any CodePoint.isSurrogate then 500 else 200) p

/-- The text of the page that is sent to a request of a method. A request for the head of an answer
gets an empty one. -/
def pageText (method : Text) (p : Page) : Text := if method = "HEAD" then [] else p.write

end Response

/-- The disk after a request, the answer and the log. -/
structure Reply where
  disk : Disk
  response : Response
  log : List LogRecord := []

namespace Service

/-! ## The page -/

/-- The answer to a filled form. -/
def servePage (s : Settings) (d : Disk) (fields : List (Text × Text)) : Reply :=
  let source := (Table.get? "source_text" fields).getD []
  let given := Text.strip ((Table.get? "file_name" fields).getD [])
  let fileName := if given.isEmpty then Page.defaultFileName else given
  { disk := d
    response :=
      match Page.ofSource s.detail fileName source with
      | .ok p => .ofPage p
      | .error _ => .failure
    log := Page.log s.detail fileName source }

/-! ## Imports -/

/-- A given value as a text, or a default. -/
def textOr (default : Text) (v : Value) : Except Fault Text := (v.orElse (.text default)).display

/-- The source that an item of a list of files gives. Items that are no records give none. -/
def source? : Value → Option (Except Fault (Value × Value))
  | .record fs => some do
    let name ← textOr Page.defaultFileName ((Table.get? "file_name" fs).getD .null)
    let content ← textOr [] ((Table.get? "content" fs).getD .null)
    return (.text name, .text content)
  | _ => none

/-- The sources that a list of files gives. -/
def sources (files : List Value) : Except Fault (List (Value × Value)) :=
  (files.filterMap source?).mapM id

/-- The answer to an import. -/
def serveImport (d : Disk) (v : Value) : Reply :=
  match v.field "files" with
  | .error _ => { disk := d, response := .failure }
  | .ok (.list files) =>
    match sources files with
    | .error _ => { disk := d, response := .failure }
    | .ok sources =>
      { disk := d
        response :=
          match (Import.ofSources {} sources).toValue with
          | .ok v => .document 200 v
          | .error _ => .failure
        log := Import.sourcesLog {} sources }
  | .ok _ =>
    let refused : Value :=
      .record [("success", .truth false), ("files", .list []), ("error", .text "缺少 files 列表")]
    { disk := d, response := .document 400 refused }

/-! ## Exports -/

/-- The answer to an export that is refused before it starts. -/
def refused (code : Nat) (message : Text) : Response :=
  .document code (.record [("success", .truth false), ("error", .text message)])

/-- Faults of a tree of widgets for which an answer is worded. -/
def isInvalidTree (f : Fault) : Bool :=
  [FaultKind.wrongType, .wrongValue, .unencodable, .noMember].contains f.kind

/-- The answer to an export of screens. -/
def serveScreens (s : Settings) (d : Disk) (folder : Value) (screens : List Screen) : Reply :=
  let o : ExportOptions := { detail := s.detail }
  let subject : Subject := .list (screens.map .screen)
  if folder.isTrue then
    if s.diskExport then
      match Export.run o folder d subject with
      | (d, .ok outcome, log) => { disk := d, response := .document 200 outcome.toValue, log }
      | (d, .error _, log) => { disk := d, response := .failure, log }
    else { disk := d, response := refused 403 "服务器未开启写盘导出" }
  else
    { disk := d
      response :=
        match Project.ofSubject o subject with
        | .ok p => .document 200 p.toValue
        | .error _ => .failure
      log := Project.log o subject }

/-- The answer to an export. -/
def serveExport (s : Settings) (d : Disk) (v : Value) : Reply :=
  match v.field "screens" with
  | .error _ => { disk := d, response := .failure }
  | .ok (.list values) =>
    match Screen.ofValues values with
    | .ok screens => serveScreens s d ((v.field "output_dir").toOption.getD .null) screens
    | .error f =>
      if isInvalidTree f then
        { disk := d, response := refused 400 ("无效的控件树: " ++ f.message) }
      else { disk := d, response := .failure }
  | .ok _ => { disk := d, response := refused 400 "缺少 screens 列表" }

/-! ## Answers -/

/-- The reply to what a framework gives, which may be the status of its own answer. -/
def replyTo {α : Type} (d : Disk) (given : Except Nat α) (reply : α → Reply) : Reply :=
  match given with
  | .ok a => reply a
  | .error code => { disk := d, response := .status code }

/-- The value of the document in a request: an empty record if there is none that counts as
given. -/
def payload (w : Framework) (r : Request) : Except Nat Value :=
  (w.document r).map fun v => v.orElse (.record [])

/-- The answer to a request of a method that the route has. -/
def serve (w : Framework) (s : Settings) (d : Disk) (r : Request) (route : Route) : Reply :=
  if r.verb = "OPTIONS" then { disk := d, response := .status 200 }
  else
    match route with
    | .page =>
      if r.verb = "GET" then { disk := d, response := .ofPage .blank }
      else replyTo d (w.form r) (servePage s d)
    | .importing => replyTo d (payload w r) (serveImport d)
    | .exporting => replyTo d (payload w r) (serveExport s d)
    | .asset => { disk := d, response := .status 404 }

/-- The answer to a request. -/
def respond (w : Framework) (s : Settings) (d : Disk) (r : Request) : Reply :=
  replyTo d (w.lead r) (serve w s d r)

end Service

end LvglForest
