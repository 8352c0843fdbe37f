import LvglForest.Source.Lexical

/-!
# Comments

Takes the comments out of a line: from `//` to the end, and from `/*` to `*/`, in place of which one
space is left. A block comment may go on over several lines, so a line starts inside or outside one
and ends inside or outside one. Comment marks inside literals are no marks.
-/

namespace LvglForest.Comment

/-- Puts a code point before the code of a line. -/
def keep (p : CodePoint) (line : Text × Bool) : Text × Bool := (p :: line.1, line.2)

mutual

/-- The rest of a line inside a block comment. -/
def stripBlock : Text → Text × Bool
  | [] => ([], true)
  | .char '*' :: .char '/' :: t => keep (.char ' ') (stripCode .code t)
  | _ :: t => stripBlock t

/-- The rest of a line outside block comments. -/
def stripCode : Lexical → Text → Text × Bool
  | _, [] => ([], false)
  | .code, .char '/' :: .char '/' :: _ => ([], false)
  | .code, .char '/' :: .char '*' :: t => stripBlock t
  | s, p :: t => keep p (stripCode (s.next p) t)

end

/-- The code of a line without its comments, and whether the line ends inside a block comment. -/
def strip (inBlock : Bool) (line : Text) : Text × Bool :=
  if inBlock then stripBlock line else stripCode .code line

/-- The code of each of the lines that follow one another. -/
def stripLines : Bool → List Text → List (Text × Bool)
  | _, [] => []
  | inBlock, line :: lines =>
    let stripped := strip inBlock line
    stripped :: stripLines stripped.2 lines

end LvglForest.Comment
