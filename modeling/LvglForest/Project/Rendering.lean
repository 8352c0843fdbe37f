import LvglForest.Code.Generation
import LvglForest.Disk.Encoding
import LvglForest.Project.Symbol

/-!
# Rendering

The source files of a project: a header that declares the variables of all widgets and the functions
of all screens, and for each screen a file that defines its variables and the function that builds
it. Nothing is written to a disk here.
-/

namespace LvglForest

/-- The choices of an export. The texts among them are meant to be texts, but any value can be given
for them, and the operation that needs a text refuses it. -/
structure ExportOptions where
  headerName : Value := .text "ui.h"
  includeLine : Value := .text "#include \"lvgl/lvgl.h\""
  functionSuffix : Text := "_create"
  /-- The name of the screen that takes widgets without one. -/
  defaultScreenName : Value := .text Screen.defaultName
  /-- The parameter of the functions, which is the parent of the roots. -/
  parentName : Text := "parent"
  detail : Detail := .verbose
  encoding : Value := .text Encoding.utf8.name

/-- A file of source. -/
structure GeneratedFile where
  name : Value
  code : Text

/-- Separates screens from widgets without one. -/
def Subject.sortOut : List Subject → Except Fault (List Screen × Forest Widget)
  | [] => .ok ([], [])
  | .screen s :: ss => (sortOut ss).map fun (screens, loose) => (s :: screens, loose)
  | .parsed p :: ss =>
    p.toScreen.bind fun s => (sortOut ss).map fun (screens, loose) => (s :: screens, loose)
  | .widget t :: ss => (sortOut ss).map fun (screens, loose) => (screens, t :: loose)
  | s :: _ => .error (.notAccepted .exporting s.typeName)

/-- The screens of a subject. Widgets without a screen come last, on a screen of their own. -/
def Subject.screens (o : ExportOptions) (s : Subject) : Except Fault (List Screen) := do
  let items :=
    match s with
    | .list items => items
    | s => [s]
  let (screens, loose) ← Subject.sortOut items
  return if loose.isEmpty then screens else screens ++ [⟨o.defaultScreenName, loose⟩]

namespace Rendering

/-! ## Screens -/

/-- A screen that is being rendered: the symbol of its name, the symbol it gets, and what is
generated for it. -/
structure Draft where
  wanted : Text
  symbol : Text
  emissions : Emissions

/-- The drafts of screens in order, up to a screen whose name is no text. -/
def drafts (o : ExportOptions) (used : List Text) : List Screen → List (Except Fault Draft)
  | [] => []
  | s :: ss =>
    match Symbol.ofValue s.name with
    | .ok wanted =>
      let symbol := Symbol.free used wanted
      .ok ⟨wanted, symbol, Forest.emissions o.detail o.parentName [] 0 s.widgets⟩ ::
        drafts o (symbol :: used) ss
    | .error f => [.error f]

namespace Draft

/-- The variables of a screen. -/
def identifiers (d : Draft) : List Text := Text.distinct d.emissions.identifiers

/-- The function of a screen. -/
def functionName (o : ExportOptions) (d : Draft) : Text := d.symbol ++ o.functionSuffix

/-- The function of a screen with its parameter. -/
def signature (o : ExportOptions) (d : Draft) : Text :=
  "void " ++ d.functionName o ++ "(lv_obj_t * " ++ o.parentName ++ ")"

/-- The definitions of the variables of a screen. -/
def definitions (d : Draft) : List Text :=
  d.identifiers.map fun id => ("lv_obj_t * " : Text) ++ id ++ " = NULL;"

/-- The lines of the body of a screen's function. -/
def bodyLines (d : Draft) : List Text :=
  let code := d.emissions.code
  if code.isEmpty then [] else Text.splitOn (.char '\n') code

/-- The lines that a screen's function starts with: its parent is emptied and made to fill its own
parent. -/
def openingLines (o : ExportOptions) : List Text :=
  [o.detail.indent ++ "lv_obj_clean(" ++ o.parentName ++ ");",
    o.detail.indent ++ "lv_obj_set_size(" ++ o.parentName ++ ", LV_PCT(100), LV_PCT(100));", []]

/-- The line that includes the header. Nothing is rendered under a name that cannot be shown. -/
def includeLine (o : ExportOptions) : Text :=
  "#include \"" ++ o.headerName.display.toOption.getD [] ++ "\""

/-- The lines of the file of a screen. -/
def lines (o : ExportOptions) (d : Draft) : List Text :=
  [includeLine o, []] ++ d.definitions ++
    [[], d.signature o ++ (" \x7b" : Text)] ++ openingLines o ++
    (d.bodyLines.map fun line => if line.isEmpty then [] else o.detail.indent ++ line) ++
    [("\x7d" : Text), []]

/-- The file of a screen. -/
def file (o : ExportOptions) (d : Draft) : GeneratedFile where
  name := .text (d.symbol ++ ".cpp")
  code := Text.join "\n" (d.lines o)

/-- The reports on the skipped widgets of a screen. -/
def issues (d : Draft) : List Issue := d.emissions.issues d.symbol

/-- The fault that ends a draft: that of its statements, or else that of showing the name of the
header. -/
def fault? (o : ExportOptions) (d : Draft) : Option Fault :=
  match d.emissions.fault?, o.headerName.display with
  | some f, _ => some f
  | none, .error f => some f
  | none, .ok _ => none

end Draft

/-! ## The project -/

/-- The declarations of the variables of all screens. -/
def declarations (ds : List Draft) : List Text :=
  (Text.distinct (ds.flatMap Draft.identifiers)).map fun id =>
    ("extern lv_obj_t * " : Text) ++ id ++ ";"

/-- The lines of the header, in which one includes the library. -/
def headerLines (o : ExportOptions) (library : Text) (ds : List Draft) : List Text :=
  [("#pragma once" : Text), library, [], "// Global widget variables"] ++ declarations ds ++
    [[]] ++ ds.map (fun d => d.signature o ++ (";" : Text)) ++ [[]]

/-- The header. -/
def header (o : ExportOptions) (library : Text) (ds : List Draft) : GeneratedFile where
  name := o.headerName
  code := Text.join "\n" (headerLines o library ds)

/-- The drafts, if no fault ends any of them. -/
def settled (o : ExportOptions) : List (Except Fault Draft) → Except Fault (List Draft)
  | [] => .ok []
  | .error f :: _ => .error f
  | .ok d :: ds =>
    match d.fault? o with
    | some f => .error f
    | none => (settled o ds).map (d :: ·)

/-- Warnings on variables that an earlier screen has too. -/
def sharedRecords (owners : Table Text) (symbol : Text) (identifiers : List Text) :
    List LogRecord :=
  identifiers.filterMap fun id =>
    (owners.get? id).map fun owner =>
      { level := .warning, source := .exporting
        text := "标识符 " ++ id ++ " 同时定义在屏幕 " ++ owner ++ " 和 " ++ symbol ++ " 中" }

/-- Gives the variables that no screen has yet to a screen. -/
def claim (symbol : Text) (identifiers : List Text) (owners : Table Text) : Table Text :=
  identifiers.foldl (fun owners id => if owners.has id then owners else owners.put id symbol) owners

/-- The log of the drafts, up to a fault. -/
def log (o : ExportOptions) (owners : Table Text) : List (Except Fault Draft) → List LogRecord
  | [] => []
  | .error _ :: _ => []
  | .ok d :: ds =>
    let taken : List LogRecord :=
      if d.symbol = d.wanted then []
      else
        [{ level := .warning, source := .exporting
           text := "屏幕符号 " ++ d.wanted ++ " 已被占用，改用 " ++ d.symbol }]
    let generated := d.emissions.log d.symbol
    if d.emissions.fault?.isSome then taken ++ generated
    else
      taken ++ generated ++ sharedRecords owners d.symbol d.identifiers ++
        if (d.fault? o).isSome then [] else log o (claim d.symbol d.identifiers owners) ds

end Rendering

/-- The files of a project and the reports on skipped widgets. -/
structure Project where
  files : List GeneratedFile
  issues : List Issue

namespace Project

/-- The project of drafts. -/
def ofDrafts (o : ExportOptions) (library : Text) (ds : List Rendering.Draft) : Project where
  files := Rendering.header o library ds :: ds.map (Rendering.Draft.file o)
  issues := ds.flatMap Rendering.Draft.issues

/-- The project of screens. The line that includes the library must be a text. -/
def ofScreens (o : ExportOptions) (screens : List Screen) : Except Fault Project :=
  match Rendering.settled o (Rendering.drafts o [] screens), o.includeLine with
  | .error f, _ => .error f
  | .ok ds, .text library => .ok (ofDrafts o library ds)
  | .ok _, v => .error (.notLine v.shape)

/-- The project of a subject. -/
def ofSubject (o : ExportOptions) (s : Subject) : Except Fault Project :=
  match s.screens o with
  | .error f => .error f
  | .ok screens => ofScreens o screens

/-- The log of rendering a subject. -/
def log (o : ExportOptions) (s : Subject) : List LogRecord :=
  match s.screens o with
  | .error _ => []
  | .ok screens => Rendering.log o [] (Rendering.drafts o [] screens)

end Project

end LvglForest
