import LvglForest.Text.Ranges

/-!
# Blanks

The white space of Unicode, with the four ASCII separators U+001C to U+001F. The zero width space
and the byte order mark are no blanks.
-/

namespace LvglForest

/-- The ranges of the blanks. -/
def blankRanges : Ranges :=
  [(9, 13), (28, 32), (133, 133), (160, 160), (5760, 5760), (8192, 8202), (8232, 8233),
   (8239, 8239), (8287, 8287), (12288, 12288)]

/-- White space. -/
def CodePoint.isBlank (p : CodePoint) : Bool :=
  blankRanges.contains p.value

namespace Text

/-- Every code point is a blank. -/
def isBlank (t : Text) : Bool := t.all CodePoint.isBlank

/-- The text without the blanks before it. -/
def stripStart (t : Text) : Text := t.dropWhile CodePoint.isBlank

/-- The text without the blanks after it. -/
def stripEnd (t : Text) : Text := (t.reverse.dropWhile CodePoint.isBlank).reverse

/-- The text without the blanks around it. -/
def strip (t : Text) : Text := t.stripStart.stripEnd

end Text

end LvglForest
