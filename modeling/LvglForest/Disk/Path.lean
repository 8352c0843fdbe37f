import LvglForest.Text.Basic

/-!
# Paths

Paths as texts: parts separated by slashes. Empty parts and single dots mean nothing and are left
out; double dots are kept. A path that starts with a slash is absolute, and exactly two slashes at
the start are kept as two.
-/

namespace LvglForest

/-- A path: its leading slashes and its parts. -/
structure Path where
  root : Text
  parts : List Text

namespace Path

/-- The path that a text writes. -/
def ofText (t : Text) : Path :=
  let slashes := t.takeWhile (· = .char '/')
  { root := if slashes.isEmpty then "" else if slashes.length = 2 then "//" else "/"
    parts := (Text.splitOn (.char '/') t).filter fun part => !part.isEmpty && part ≠ "." }

/-- A path as a text. The path without parts is a dot. -/
def toText (p : Path) : Text :=
  if p.root.isEmpty ∧ p.parts.isEmpty then "." else p.root ++ Text.join "/" p.parts

/-- A path followed by another one, which replaces it if it is absolute. -/
def join (p q : Path) : Path :=
  if q.root.isEmpty then { p with parts := p.parts ++ q.parts } else q

/-- The path without its last part. -/
def parent (p : Path) : Path := { p with parts := p.parts.dropLast }

/-- The last part. -/
def name (p : Path) : Text := p.parts.getLast?.getD []

/-- The text before the last dot of a name, and the rest from that dot on. -/
def splitLastDot (name : Text) : Text × Text :=
  let suffix := (name.reverse.takeWhile (· ≠ .char '.')).reverse
  if suffix.length < name.length then
    (name.take (name.length - suffix.length - 1), .char '.' :: suffix)
  else (name, [])

/-- The last part without its suffix. A dot at the start or at the end of a name starts no
suffix. -/
def stem (p : Path) : Text :=
  let (before, suffix) := splitLastDot p.name
  if before.isEmpty ∨ suffix.length ≤ 1 then p.name else before

/-- The suffix of a file name, with its dot. Dots at the start of a name start none. -/
def extension (name : Text) : Text :=
  let (before, suffix) := splitLastDot name
  if before.all (· = .char '.') then [] else suffix

end Path

end LvglForest
