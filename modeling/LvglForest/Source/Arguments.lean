import LvglForest.Fault
import LvglForest.Source.Lexical
import LvglForest.Text.Blank
import LvglForest.Text.Lines

/-!
# Argument lists

What stands between the parentheses of a call, and its parts between the commas. Nothing is
interpreted: a nested call is a part of its argument, and parentheses and commas inside literals do
not count.
-/

namespace LvglForest.Arguments

/-- The text up to the closing parenthesis that brings the nesting depth down to zero. -/
def upToClosing : Lexical → Int → Text → Option Text
  | _, _, [] => none
  | .code, depth, p :: t =>
    if p = .char ')' then
      if depth = 1 then some [] else (upToClosing .code (depth - 1) t).map (p :: ·)
    else
      let depth := if p = .char '(' then depth + 1 else depth
      (upToClosing (Lexical.code.next p) depth t).map (p :: ·)
  | s, depth, p :: t => (upToClosing (s.next p) depth t).map (p :: ·)

/-- The text between the opening parenthesis that a text starts with and the one that closes it. -/
def capture (t : Text) : Option Text := (upToClosing .code 0 t).map (·.drop 1)

/-- The text between the opening parenthesis at a place and the one that closes it. A negative place
counts from the end, and a text that ends too early is then read once more from its start; what is
captured lies between the place after the opening parenthesis, which after the last place is the
first one, and that of the closing one. -/
def captureAt (t : Text) (place : Int) : Except Fault (Option Text) :=
  match place with
  | .ofNat n => .ok (capture (t.drop n))
  | .negSucc n =>
    let tail := n + 1
    if t.length < tail then .error (.noIndex .text)
    else
      let first := if tail = 1 then 0 else t.length - tail + 1
      .ok ((upToClosing .code 0 (t.drop (t.length - tail) ++ t)).map fun u =>
        if u.length < tail then u.drop 1 else (t.take (u.length - tail)).drop first)

/-- An opening parenthesis, bracket or brace. -/
def isOpening (p : CodePoint) : Bool := p = .char '(' || p = .char '[' || p = .char '\x7b'

/-- A closing parenthesis, bracket or brace. -/
def isClosing (p : CodePoint) : Bool := p = .char ')' || p = .char ']' || p = .char '\x7d'

/-- The nesting depth after a code point outside literals. -/
def depthAfter (depth : Int) (p : CodePoint) : Int :=
  if isOpening p then depth + 1 else if isClosing p then depth - 1 else depth

/-- The parts of a text between the commas at nesting depth zero. -/
def pieces : Lexical → Int → Text → List Text
  | _, _, [] => [[]]
  | .code, depth, p :: t =>
    if p = .char ',' ∧ depth = 0 then [] :: pieces .code depth t
    else Text.ontoFirst p (pieces (Lexical.code.next p) (depthAfter depth p) t)
  | s, depth, p :: t => Text.ontoFirst p (pieces (s.next p) depth t)

/-- The arguments that a text lists, without the blanks around them. A blank text lists none. -/
def split (t : Text) : List Text :=
  if t.isBlank then [] else (pieces .code 0 t).map Text.strip

end LvglForest.Arguments
