import LvglForest.Hierarchy.ParsedFile
import LvglForest.Outline
import LvglForest.Page.Markup
import LvglForest.Project.Rendering

/-!
# The page

A page with a form that takes source text. Below the form a filled page shows either why the source
was refused, or the outline of its widgets beside the source that is generated from them, with the
reports on skipped widgets.
-/

namespace LvglForest

/-- What a filled page shows. -/
inductive PageOutcome where
  | refused (error : Text)
  | result (outline code : Text) (issues : List Text)

/-- The page: blank, or filled with a file name and a source text. -/
inductive Page where
  | blank
  | filled (fileName source : Text) (outcome : PageOutcome)

namespace Page

/-! ## Content -/

/-- The file name of a form that gives none. -/
def defaultFileName : Text := "main_screen.cpp"

/-- There is no source text. -/
def emptyMessage : Text := "输入文本为空"

/-- The source text has no widgets. -/
def noWidgetsMessage : Text := "没有识别到任何LVGL控件"

/-- The outline of a parsed file on the page. -/
def outline (p : ParsedFile) : Except Fault Text :=
  if p.widgets.isEmpty then .ok "无法生成Widget树" else Outline.ofSubject .verbose true (.parsed p)

/-- The files of a project in one text. -/
def filesText (files : List GeneratedFile) : Text :=
  Text.join "\n\n" (files.map fun f =>
    ("// ===== " : Text) ++ f.name.display.toOption.getD [] ++ " =====\n" ++ f.code)

/-- A report in one text. -/
def issueText (i : Issue) : Text := i.path ++ ": " ++ i.message

/-- The code that is generated from a parsed file, and the reports. -/
def generated (d : Detail) (p : ParsedFile) : Except Fault (Text × List Text) :=
  (Project.ofSubject { detail := d } (.parsed p)).map fun project =>
    (filesText project.files, project.issues.map issueText)

/-- What a page shows of a parsed file. -/
def result (d : Detail) (p : ParsedFile) : Except Fault PageOutcome := do
  let tree ← outline p
  let (code, issues) ← generated d p
  return .result tree code issues

/-- The page for a source text. -/
def ofSource (d : Detail) (fileName source : Text) : Except Fault Page :=
  if source.isBlank then .ok (.filled fileName source (.refused emptyMessage))
  else
    let p := ParsedFile.ofSource Attachment.defaultPlaceholders (.text fileName) source
    if p.widgets.isEmpty then .ok (.filled fileName source (.refused noWidgetsMessage))
    else (result d p).map (.filled fileName source)

/-- The log of making the page for a source text. -/
def log (d : Detail) (fileName source : Text) : List LogRecord :=
  if source.isBlank then []
  else
    let p := ParsedFile.ofSource Attachment.defaultPlaceholders (.text fileName) source
    ParsedFile.log Attachment.defaultPlaceholders (.text fileName) source ++
      if p.widgets.isEmpty then [] else Project.log { detail := d } (.parsed p)

/-! ## Layout -/

/-- A line end and the indentation of a number of levels. -/
def newline (level : Nat) : Markup := .text (.char '\n' :: List.replicate (4 * level) (.char ' '))

/-- The style sheet of the page. -/
def sheet : Text :=
  "\n        body \x7b font-family: sans-serif; margin: 2em; \x7d\n" ++
  "        textarea \x7b width: 100%; height: 18em; font-family: monospace; \x7d\n" ++
  "        pre \x7b background: #f4f4f4; padding: 1em; overflow-x: auto; \x7d\n" ++
  "        .error \x7b color: #b00020; \x7d\n" ++
  "        .columns \x7b display: flex; gap: 2em; \x7d\n" ++
  "        .columns > div \x7b flex: 1; min-width: 0; \x7d\n    "

/-- The head of the page. -/
def head : Markup :=
  .element "head" []
    [newline 1, .void "meta" [("charset", "utf-8")],
      newline 1, .element "title" [] [.text "LVGL Bridge"],
      newline 1, .sheet sheet, newline 0]

/-- The form, with a file name and a source text in it. -/
def form (fileName source : Text) : Markup :=
  .element "form" [("method", "post")]
    [newline 2,
      .element "label" []
        [.text "文件名 ",
          .void "input" [("type", "text"), ("name", "file_name"), ("value", fileName)]],
      newline 2,
      .element "textarea"
        [("name", "source_text"), ("placeholder", "粘贴包含 LVGL 调用的 C/C++ 源码")] [.text source],
      newline 2, .element "button" [("type", "submit")] [.text "解析"], newline 1]

/-- Why the source was refused. -/
def errorPart (error : Text) : List Markup :=
  if error.isEmpty then []
  else [newline 1, .element "p" [("class", "error")] [.text error], newline 1]

/-- The reports as a list. -/
def issuesPart (issues : List Text) : List Markup :=
  if issues.isEmpty then []
  else
    [newline 3,
      .element "ul" [("class", "error")]
        ([newline 4] ++ issues.map (fun issue => .element "li" [] [.text issue]) ++ [newline 3]),
      newline 3]

/-- The outline and the generated code side by side. -/
def resultPart (outline code : Text) (issues : List Text) : List Markup :=
  if outline.isEmpty then []
  else
    [newline 1,
      .element "div" [("class", "columns")]
        [newline 2,
          .element "div" []
            [newline 3, .element "h2" [] [.text "Widget 树"],
              newline 3, .element "pre" [] [.text outline], newline 2],
          newline 2,
          .element "div" []
            ([newline 3, .element "h2" [] [.text "重新生成的代码"],
              newline 3, .element "pre" [] [.text code], newline 3] ++
              issuesPart issues ++ [newline 2]),
          newline 1],
      newline 1]

/-- What the page shows below the form. -/
def outcomeParts : PageOutcome → List Markup × List Markup
  | .refused error => (errorPart error, [])
  | .result outline code issues => ([], resultPart outline code issues)

/-- The body of a page. -/
def body (fileName source : Text) (parts : List Markup × List Markup) : Markup :=
  .element "body" []
    ([newline 1, .element "h1" [] [.text "LVGL Bridge"],
      newline 1, form fileName source, newline 0, newline 1] ++
      parts.1 ++ [newline 0, newline 1] ++ parts.2 ++ [newline 0])

/-- A page as an element. -/
def layout : Page → Markup
  | .blank => document defaultFileName [] ([], [])
  | .filled fileName source outcome =>
    document (if fileName.isEmpty then defaultFileName else fileName) source (outcomeParts outcome)
where
  document (fileName source : Text) (parts : List Markup × List Markup) : Markup :=
    .element "html" [("lang", "zh")]
      [newline 0, head, newline 0, body fileName source parts, newline 0]

/-- The page as it is sent. -/
def write (p : Page) : Text := "<!doctype html>\n" ++ (layout p).write

end Page

end LvglForest
