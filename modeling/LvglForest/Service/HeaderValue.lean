import LvglForest.Service.Charset
import LvglForest.Table
import LvglForest.Text.Lower

/-!
# Header values

A header value is a main value with parameters after it, each behind a semicolon: a name, an equals
sign, and a token or a quoted text. What is no parameter is passed over, but a quoted text without
its end ends the reading. Of two parameters of one name the later one counts.

A name that ends in a star marks a percent escaped value, which may name its charset before two
apostrophes. Names that end in a star and a number are pieces of one value: the piece of number zero
starts the value, and every other piece is put behind what is there.
-/

namespace LvglForest

/-- A main value with its parameters, their names in small letters. -/
structure HeaderValue where
  main : Text
  parameters : Table Text := []

namespace HeaderValue

/-- A blank around the parts of a header value. -/
def isGap (p : CodePoint) : Bool := p = .char ' ' || p = .char '\t'

/-- Leaves out the blanks on both sides. -/
def trim (t : Text) : Text := ((t.dropWhile isGap).reverse.dropWhile isGap).reverse

/-- A digit in ASCII. -/
def isDigit (p : CodePoint) : Bool := 0x30 ≤ p.value && p.value ≤ 0x39

/-- A code point of a token. -/
def isTokenPoint (p : CodePoint) : Bool :=
  p.isAsciiLetter || isDigit p || ("_!#$%&'*+-.^`|~" : Text).contains p

/-! ## Pieces of text -/

/-- The text up to the closing quote, with its escapes, and the rest. -/
def quoted? : Text → Option (Text × Text)
  | [] => none
  | .char '\\' :: p :: t => (quoted? t).map fun (u, r) => (.char '\\' :: p :: u, r)
  | .char '"' :: t => some ([], t)
  | p :: t => (quoted? t).map fun (u, r) => (p :: u, r)

/-- A quoted text without its escapes: a code point after a backslash stands for itself. -/
def unescapeQuoted : Text → Text
  | [] => []
  | .char '\\' :: p :: t => p :: unescapeQuoted t
  | p :: t => p :: unescapeQuoted t

/-- A text in which the percent escapes of quotes are quotes. -/
def restoreQuotes : Text → Text
  | [] => []
  | .char '%' :: .char '2' :: .char '2' :: t => .char '"' :: restoreQuotes t
  | p :: t => p :: restoreQuotes t

/-- The value of a parameter as it is written at the start of a text, quotes included, and the rest
after it. No value is a value too; only a quoted text without its end is none. -/
def written? (t : Text) : Option (Text × Text) :=
  match t with
  | .char '"' :: r => (quoted? r).map fun (u, r) => (.char '"' :: u ++ [.char '"'], r)
  | _ =>
    let token := t.takeWhile isTokenPoint
    some (token, t.drop token.length)

/-- The parameter that a text starts with, if it starts with one, and the text to go on from. Behind
a quoted text without its end nothing is read. -/
def parameter? (t : Text) : Option (Text × Text) × Text :=
  let name := t.takeWhile isTokenPoint
  match name, t.drop name.length with
  | _ :: _, .char '=' :: r =>
    match written? r with
    | some ([], r) => (none, r)
    | some (value, r) => (some (Text.lower name, value), r)
    | none => (none, [])
  | _, _ => (none, t)

/-- The parameters of a text, with their values as they are written. -/
def written : Nat → Text → List (Text × Text)
  | 0, _ => []
  | fuel + 1, t =>
    let (parameter, r) := parameter? t
    let more :=
      match r.dropWhile (· ≠ .char ';') with
      | [] => []
      | _ :: r => written fuel (r.dropWhile isGap)
    parameter.toList ++ more

/-! ## Values of parameters -/

/-- A value without its quotes and its escapes. -/
def unquote (t : Text) : Text :=
  restoreQuotes (match t with
    | .char '"' :: r => unescapeQuoted r.dropLast
    | t => t)

/-- The charset that an escaped value names, in small letters, and the value after it. -/
def charsetOf? (t : Text) : Option (Text × Text) :=
  let isPart (p : CodePoint) : Bool := isTokenPoint p && p ≠ .char '\''
  let charset := t.takeWhile isPart
  match t.drop charset.length with
  | .char '\'' :: r =>
    match r.dropWhile isPart with
    | .char '\'' :: r =>
      let value := r.takeWhile isTokenPoint
      if value.isEmpty then none else some (Text.lower charset, value)
    | _ => none
  | _ => none

/-- The charsets that were named before: the last one, and the last one that is known. -/
structure Charsets where
  last : Text := []
  known : Text := []

/-- The value of an escaped parameter. A value that names no charset is in one named before. -/
def unescape (c : Charsets) (t : Text) : Charsets × Text :=
  let (last, t) := (charsetOf? t).getD (c.last, t)
  let last := if last.isEmpty then c.known else last
  match Charset.ofName? last with
  | some charset => ({ last, known := last }, charset.unescape t)
  | none => ({ c with last }, t)

/-- The name without the number of a piece, and the digits of the number, if it has one. -/
def pieceOf? (name : Text) : Option (Text × Text) :=
  let digits := (name.reverse.takeWhile isDigit).reverse
  match name.reverse.drop digits.length with
  | .char '*' :: r => if digits.isEmpty then none else some (r.reverse, digits)
  | _ => none

/-- Adds a parameter to a table, or a piece of one. -/
def addTo (table : Table Text) (name value : Text) : Table Text :=
  match pieceOf? name with
  | none => table.put name value
  | some (name, digits) =>
    if digits = "0" then table.put name value
    else table.put name ((table.get? name).getD [] ++ value)

/-- The parameters, after those that are known already. A percent escaped value has no quotes. -/
def collect : Charsets → Table Text → List (Text × Text) → Table Text
  | _, table, [] => table
  | c, table, (name, value) :: rest =>
    if name.getLast? = some (.char '*') then
      let (c, value) := unescape c value
      collect c (addTo table name.dropLast value) rest
    else collect c (addTo table name (unquote value)) rest

/-! ## Header values -/

/-- The header value of a text. -/
def ofText (t : Text) : HeaderValue :=
  let main := trim (t.takeWhile (· ≠ .char ';'))
  let rest := trim ((t.dropWhile (· ≠ .char ';')).drop 1)
  if main.isEmpty || rest.isEmpty then { main }
  else { main, parameters := collect {} [] (written (rest.length + 1) rest) }

/-- The main value in small letters, as media types are compared. -/
def mediaType (v : HeaderValue) : Text := Text.lower v.main

/-- The value of a parameter. -/
def parameter (name : Text) (v : HeaderValue) : Option Text := v.parameters.get? name

end HeaderValue

end LvglForest
