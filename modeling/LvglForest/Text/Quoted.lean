import LvglForest.Text.Printable

/-!
# Quoted texts

How a text is shown inside a message: between single quotes, or between double quotes if it holds a
single one and no double one. A backslash and the quote used are escaped by a backslash, tab, line
feed and carriage return by their letters, and what cannot be printed by its number in two, four or
eight hexadecimal digits.
-/

namespace LvglForest

/-- A number in lower-case hexadecimal with at least `width` digits. -/
def hexText (width n : Nat) : Text :=
  let digits := Nat.toDigits 16 n
  (List.replicate (width - digits.length) '0' ++ digits).map .char

namespace CodePoint

/-- How a code point is written between the given quotes. -/
def quotedWithin (quote : Char) (p : CodePoint) : Text :=
  if p = .char quote ∨ p = .char '\\' then [.char '\\', p]
  else if p = .char '\t' then "\\t"
  else if p = .char '\n' then "\\n"
  else if p = .char '\r' then "\\r"
  else if p.isPrintable then [p]
  else if p.value < 0x100 then "\\x" ++ hexText 2 p.value
  else if p.value < 0x10000 then "\\u" ++ hexText 4 p.value
  else "\\U" ++ hexText 8 p.value

end CodePoint

/-- A text between quotes. -/
def Text.quoted (t : Text) : Text :=
  let quote := if .char '\'' ∈ t ∧ .char '"' ∉ t then '"' else '\''
  .char quote :: t.flatMap (CodePoint.quotedWithin quote) ++ [.char quote]

end LvglForest
