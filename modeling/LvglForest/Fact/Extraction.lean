import LvglForest.Fact.Registry
import LvglForest.Log
import LvglForest.Source.Comment

/-!
# Extraction

The facts of a source text, line by line. Of each line the comments and the blanks around the code
are taken off, also a byte order mark at its start; lines that name no `lv_` are passed over.
Whether a block comment goes on is the only thing that one line passes to the next.
-/

namespace LvglForest.Extraction

/-- A line without the blanks around it and a byte order mark before it. -/
def trim (line : Text) : Text :=
  match line.strip with
  | .char '\uFEFF' :: t => t
  | t => t

/-- The code of each line with the line's number. -/
def codeLines (lines : List Text) : List (Int × Text) :=
  ((Comment.stripLines false (lines.map trim)).zipIdx 1).map fun ((code, _), number) =>
    ((number : Int), code.strip)

/-- A line of code may hold a call. -/
def mayCall (code : Text) : Bool := Text.hasInfix "lv_" code

/-- What happens while a source text is read. -/
def events (registry : Registry) (source : Text) : List Event :=
  ((codeLines source.lines).filter fun (_, code) => mayCall code).flatMap
    fun (number, code) => registry.lineEvents code number

/-- The facts of a source text in the order of its lines. -/
def facts (registry : Registry) (source : Text) : List Fact :=
  (events registry source).filterMap Event.fact?

/-! ## Reports

Each event is reported in the log before the next recognizer is tried. The failure of a recognizer
is passed over, but a fault while it is reported is not: it ends the work. -/

/-- The log record of an event. The failure of a recognizer that has no name cannot be reported, and
neither can a fact that cannot be described. -/
def record : Event → Except Fault LogRecord
  | .failure number recognizer line fault =>
    recognizer.map fun name =>
      { level := .warning, source := .extraction
        text := "Failed to recognize line " ++ Decimal.ofInt number ++ " with " ++ name ++
          ": " ++ line ++ " - " ++ fault.message }
  | .remark t => .ok { level := .debug, source := .extraction, text := t }
  | .fact f => f.describe.map fun t => { level := .debug, source := .extraction, text := t }

/-- Reports events one after another. The result is their facts, or the fault that ends the work,
and the log. -/
def report : List Event → Except Fault (List Fact) × List LogRecord
  | [] => (.ok [], [])
  | e :: es =>
    match record e with
    | .error fault => (.error fault, [])
    | .ok r =>
      let (facts, log) := report es
      (facts.map (e.fact?.toList ++ ·), r :: log)

/-- Reads the code of a line. -/
def extractLine (registry : Registry) (line : Text) (number : Int) :
    Except Fault (List Fact) × List LogRecord :=
  report (registry.lineEvents line number)

/-- Reads a source text. -/
def extract (registry : Registry) (source : Text) : Except Fault (List Fact) × List LogRecord :=
  report (events registry source)

/-- The log of reading a source text. -/
def log (registry : Registry) (source : Text) : List LogRecord := (extract registry source).2

end LvglForest.Extraction
