import LvglForest.Text.Basic

/-!
# Lines

A line ends at a line feed, a carriage return, the two together, a vertical tab, a form feed, one of
the separators U+001C to U+001E, a next line U+0085, or a line or paragraph separator U+2028 and
U+2029. A last line without an end counts; nothing after the last end does not.
-/

namespace LvglForest

/-- A code point that ends a line. -/
def CodePoint.isLineBreak (p : CodePoint) : Bool :=
  (0x0A ≤ p.value && p.value ≤ 0x0D) || (0x1C ≤ p.value && p.value ≤ 0x1E) || p.value == 0x85 ||
    p.value == 0x2028 || p.value == 0x2029

namespace Text

/-- Puts a code point before the first of the lines that follow it. -/
def ontoFirst (p : CodePoint) : List Text → List Text
  | [] => [[p]]
  | line :: lines => (p :: line) :: lines

/-- The lines of a text, without their ends. -/
def lines : Text → List Text
  | [] => []
  | .char '\r' :: .char '\n' :: t => [] :: lines t
  | p :: t => if p.isLineBreak then [] :: lines t else ontoFirst p (lines t)

/-- The text with carriage returns, and pairs of one with a line feed, as line feeds. -/
def unifyNewlines : Text → Text
  | [] => []
  | .char '\r' :: .char '\n' :: t => .char '\n' :: unifyNewlines t
  | .char '\r' :: t => .char '\n' :: unifyNewlines t
  | p :: t => p :: unifyNewlines t

end Text

end LvglForest
