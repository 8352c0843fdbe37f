import LvglForest.Text.Basic

/-!
# Literals in a line of source

Whether a place in a line of source lies inside a string or character literal. A literal runs from a
quote to the next quote of the same kind; a backslash takes the code point after it out of account.
Everything that reads a line (comments, parentheses, commas) reads it through these states, so what
stands inside a literal is never mistaken for structure.
-/

namespace LvglForest

/-- Where a place in a line lies. -/
inductive Lexical where
  /-- Outside literals. -/
  | code
  /-- Inside a literal that ends at the given quote. -/
  | literal (quote : CodePoint)
  /-- Inside such a literal, after a backslash. -/
  | escape (quote : CodePoint)
  deriving DecidableEq

namespace Lexical

/-- A quote of strings or of characters. -/
def isQuote (p : CodePoint) : Bool := p = .char '"' || p = .char '\''

/-- Where the place after a code point lies. -/
def next : Lexical → CodePoint → Lexical
  | .code, p => if isQuote p then .literal p else .code
  | .literal q, p => if p = .char '\\' then .escape q else if p = q then .code else .literal q
  | .escape q, _ => .literal q

/-- Where the end of a text lies that starts at a given place. -/
def after (s : Lexical) (t : Text) : Lexical := t.foldl next s

end Lexical

end LvglForest
