import LvglForest.Service.HeaderValue
import LvglForest.Text.Blank
import LvglForest.Text.Lines

/-!
# Forms in parts

A form can be sent in parts. A delimiter line, two dashes and the boundary, stands before each part;
the last one is followed by two more dashes. A part has headers, an empty line and a content; its
disposition names the field. A part with a file name is a file and no field of the form.

A body that lacks its last delimiter, or in which a part has no disposition, is no form. Lines may
end in a line feed, a carriage return, or both.
-/

namespace LvglForest.Multipart

/-! ## Lines and delimiters -/

/-- The text after the line end that it starts with. -/
def afterLineEnd? : Text → Option Text
  | .char '\r' :: .char '\n' :: t => some t
  | .char '\r' :: t => some t
  | .char '\n' :: t => some t
  | _ => none

/-- A blank that may stand behind a delimiter and around a header line. -/
def isGap (p : CodePoint) : Bool :=
  p = .char ' ' || p = .char '\t' || p = .char '\x0b' || p = .char '\x0c'

/-- What follows the delimiter that a text starts with, and whether it is the last one. -/
def afterDelimiter? (boundary t : Text) : Option (Bool × Text) :=
  match (("--" : Text) ++ boundary).isPrefixOf? t with
  | none => none
  | some (.char '-' :: .char '-' :: r) =>
    let r := r.dropWhile isGap
    some (true, (afterLineEnd? r).getD r)
  | some r => (afterLineEnd? (r.dropWhile isGap)).map (false, ·)

/-- What follows the first delimiter of a body, and whether it is the last one. -/
def afterFirst? (boundary : Text) : Text → Option (Bool × Text)
  | [] => none
  | p :: t => (afterDelimiter? boundary (p :: t)).orElse fun _ => afterFirst? boundary t

/-- The text up to the next delimiter at the start of a line, whether that is the last one, and
what follows it. -/
def upToDelimiter? (boundary : Text) : Text → Option (Text × Bool × Text)
  | [] => none
  | p :: t =>
    match (afterLineEnd? (p :: t)).bind (afterDelimiter? boundary) with
    | some (isLast, r) => some ([], isLast, r)
    | none => (upToDelimiter? boundary t).map fun (u, rest) => (p :: u, rest)

/-! ## Parts -/

/-- The headers of a part, and the part after them from the empty line on. -/
def headers? : Text → Option (Text × Text)
  | [] => none
  | .char '\r' :: .char '\n' :: .char '\r' :: .char '\n' :: t =>
    some ([], .char '\r' :: .char '\n' :: t)
  | .char '\r' :: .char '\r' :: t => some ([], .char '\r' :: t)
  | .char '\n' :: .char '\n' :: t => some ([], .char '\n' :: t)
  | p :: t => (headers? t).map fun (u, r) => (p :: u, r)

/-- The headers with the lines that start with a blank joined to the line before. -/
def unfoldLines : Text → Text
  | [] => []
  | .char '\n' :: .char ' ' :: t => .char ' ' :: unfoldLines t
  | .char '\n' :: .char '\t' :: t => .char ' ' :: unfoldLines t
  | p :: t => p :: unfoldLines t

/-- A header line without the ASCII blanks around it. -/
def trimLine (line : Text) : Text := ((line.dropWhile isGap).reverse.dropWhile isGap).reverse

/-- The name and the value of a header line. -/
def header (line : Text) : Text × Text :=
  let line := trimLine line
  (HeaderValue.trim (line.takeWhile (· ≠ .char ':')),
    HeaderValue.trim ((line.dropWhile (· ≠ .char ':')).drop 1))

/-- The value of the first header of a name in small letters. -/
def headerValue? (name : Text) (headers : List (Text × Text)) : Option HeaderValue :=
  (headers.find? fun (n, _) => Text.lower n = name).map fun (_, value) => .ofText value

/-- The charset of the content of a part. -/
def charset (headers : List (Text × Text)) : Charset :=
  let named := (headerValue? "content-type" headers).bind (·.parameter "charset")
  (named.bind fun name => Charset.ofName? (Text.lower name)).getD .utf8

/-- The field that a part stands for: none for a file and for a part that names no field. The
outer result is none if the part is not well formed. -/
def field? (headers content : Text) : Option (Option (Text × Text)) :=
  if headers.any CodePoint.isSurrogate then none
  else
    let headers :=
      (Text.splitOn (.char '\n') (unfoldLines (Text.unifyNewlines headers))).map header
    match headerValue? "content-disposition" headers with
    | none => none
    | some disposition =>
      let value := (charset headers).decode ((Utf8.encode? content).getD [])
      match disposition.parameter "name", disposition.parameter "filename" with
      | some name, none => some (some (name, value))
      | _, _ => some none

/-- The fields of the parts that follow a delimiter. -/
def fields? (boundary : Text) : Nat → Text → Option (List (Text × Text))
  | 0, _ => none
  | fuel + 1, t =>
    match headers? t with
    | none => none
    | some (headers, t) =>
      match upToDelimiter? boundary t with
      | none => none
      | some (content, isLast, rest) =>
        match field? headers ((afterLineEnd? content).getD []) with
        | none => none
        | some field =>
          if isLast then some field.toList
          else (fields? boundary fuel rest).map (field.toList ++ ·)

/-! ## Bodies -/

/-- The fields of a body with a boundary. -/
def ofText? (boundary t : Text) : Option (List (Text × Text)) :=
  match afterFirst? boundary t with
  | none => none
  | some (true, _) => some []
  | some (false, t) => fields? boundary (t.length + 1) t

/-- A boundary that can be used: it has at least one character, and all are in ASCII. -/
def isBoundary (t : Text) : Bool := !t.isEmpty && t.all (·.value < 0x80)

/-- The fields of a body with the content type that goes with it. -/
def ofBytes (contentType : HeaderValue) (bytes : List UInt8) : List (Text × Text) :=
  match contentType.parameter "boundary" with
  | some boundary =>
    if isBoundary boundary then (ofText? boundary (Utf8.decode bytes)).getD [] else []
  | none => []

end LvglForest.Multipart
