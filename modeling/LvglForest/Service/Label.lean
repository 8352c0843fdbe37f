import LvglForest.Service.Punycode
import LvglForest.Text.Digit
import LvglForest.Text.Lower
import LvglForest.Text.Word

/-!
# Labels of hosts

The labels between the dots of a host are asked for in ASCII. A label with other characters is
prepared first: characters that do not show are left out, wide forms of ASCII characters and blanks
are made plain, and what may stand in no label is refused, as is a label that mixes directions of
writing. What is not ASCII then is written in Punycode behind a mark. A label has from one to 63
characters.
-/

namespace LvglForest.Label

/-- A dot between labels. -/
def isDot (p : CodePoint) : Bool :=
  p.value = 0x2E || p.value = 0x3002 || p.value = 0xFF0E || p.value = 0xFF61

/-- The ranges of the characters that are left out. -/
def hiddenRanges : Ranges :=
  [(0xAD, 0xAD), (0x34F, 0x34F), (0x1806, 0x1806), (0x180B, 0x180D), (0x200B, 0x200D),
    (0x2060, 0x2060), (0xFE00, 0xFE0F), (0xFEFF, 0xFEFF)]

/-- The ranges of the blanks that count as the plain one. -/
def blankRanges : Ranges :=
  [(0xA0, 0xA0), (0x2000, 0x200A), (0x202F, 0x202F), (0x205F, 0x205F), (0x3000, 0x3000)]

/-- The ranges of what may stand in no label: controls, marks of direction and layout, code points
for private use, surrogates, and code points that are no characters. -/
def refusedRanges : Ranges :=
  [(0x80, 0x9F), (0x6DD, 0x6DD), (0x70F, 0x70F), (0x1680, 0x1680), (0x180E, 0x180E),
    (0x200E, 0x200F), (0x2028, 0x202E), (0x2061, 0x2063), (0x206A, 0x206F), (0x2FF0, 0x2FFB),
    (0xD800, 0xF8FF), (0xFDD0, 0xFDEF), (0xFFF9, 0xFFFF), (0x1D173, 0x1D17A), (0x1FFFE, 0x1FFFF),
    (0x2FFFE, 0x2FFFF), (0x3FFFE, 0x3FFFF), (0x4FFFE, 0x4FFFF), (0x5FFFE, 0x5FFFF),
    (0x6FFFE, 0x6FFFF), (0x7FFFE, 0x7FFFF), (0x8FFFE, 0x8FFFF), (0x9FFFE, 0x9FFFF),
    (0xAFFFE, 0xAFFFF), (0xBFFFE, 0xBFFFF), (0xCFFFE, 0xCFFFF), (0xDFFFE, 0xDFFFF),
    (0xE0001, 0xE0001), (0xE0020, 0xE007F), (0xEFFFE, 0x10FFFF)]

/-- The ranges of the characters that are written from right to left. -/
def leftwardRanges : Ranges :=
  [(0x5BE, 0x5BE), (0x5C0, 0x5C0), (0x5C3, 0x5C3), (0x5D0, 0x5EA), (0x5F0, 0x5F4), (0x61B, 0x61B),
    (0x61F, 0x61F), (0x621, 0x63A), (0x640, 0x64A), (0x66D, 0x66F), (0x671, 0x6D5), (0x6DD, 0x6DD),
    (0x6E5, 0x6E6), (0x6FA, 0x6FE), (0x700, 0x70D), (0x710, 0x710), (0x712, 0x72C), (0x780, 0x7A5),
    (0x7B1, 0x7B1), (0x200F, 0x200F), (0xFB1D, 0xFB1D), (0xFB1F, 0xFB28), (0xFB2A, 0xFB36),
    (0xFB38, 0xFB3C), (0xFB3E, 0xFB3E), (0xFB40, 0xFB41), (0xFB43, 0xFB44), (0xFB46, 0xFBB1),
    (0xFBD3, 0xFD3D), (0xFD50, 0xFD8F), (0xFD92, 0xFDC7), (0xFDF0, 0xFDFC), (0xFE70, 0xFE74),
    (0xFE76, 0xFEFC)]

/-- A character that is written from right to left. -/
def isLeftward (p : CodePoint) : Bool := leftwardRanges.contains p.value

/-- A letter that is written from left to right. -/
def isRightward (p : CodePoint) : Bool :=
  p.isWord && !p.isDigit && p ≠ .char '_' && !isLeftward p

/-- An ASCII character. -/
def isAscii (p : CodePoint) : Bool := p.value < 0x80

/-- The plain form of a character: of a wide form, of a blank, and of a letter that has no capital
of its own. -/
def plainForm (p : CodePoint) : Text :=
  if 0xFF01 ≤ p.value && p.value ≤ 0xFF5E then [.ofNat (p.value - 0xFEE0)]
  else if blankRanges.contains p.value then [.char ' ']
  else if p = .char 'ß' then "ss"
  else if p = .char 'ς' then [.char 'σ']
  else [p]

/-- Whether a label is written in one direction: where a character is written from right to left,
the first and the last one are, and no letter is written from left to right. -/
def hasOneDirection (t : Text) : Bool :=
  !t.any isLeftward ||
    (!t.any isRightward && (t.head?.map isLeftward).getD false &&
      (t.getLast?.map isLeftward).getD false)

/-- A label with its characters made plain, if all may stand in it. -/
def prepare? (t : Text) : Option Text :=
  let t := (t.filter fun p => !hiddenRanges.contains p.value).flatMap plainForm
  let t := Text.lower t
  if t.any (fun p => refusedRanges.contains p.value) || !hasOneDirection t then none else some t

/-- A label of a length that is allowed. -/
def sized? (t : Text) : Option Text := if 0 < t.length && t.length < 64 then some t else none

/-- The mark before a label in Punycode. -/
def mark : Text := "xn--"

/-- The ASCII form of a label. -/
def encode? (t : Text) : Option Text :=
  if t.all isAscii then sized? t
  else
    match prepare? t with
    | none => none
    | some t =>
      if t.all isAscii then sized? t
      else if mark.isPrefixOf t then none
      else sized? (mark ++ Punycode.encode t)

/-- Whether an ASCII label can be read: one in Punycode must be the form of some other label. -/
def isReadable (t : Text) : Bool :=
  match mark.isPrefixOf? t with
  | none => true
  | some r => ((Punycode.decode? r).bind encode?) = some t

/-- The labels of a host. -/
def split (host : Text) : List Text :=
  Text.splitOn (.char '.') (host.map fun p => if isDot p then .char '.' else p)

/-- The ASCII form of a host. The last of its labels may be empty. -/
def encodeHost? (host : Text) : Option Text :=
  let labels := if host.all isAscii then Text.splitOn (.char '.') host else split host
  match labels.getLast? with
  | none | some [] =>
    (labels.dropLast.mapM encode?).map fun ls =>
      Text.join "." (ls ++ if ls.isEmpty then [] else [[]])
  | some _ => (labels.mapM encode?).map (Text.join ".")

/-- Whether the labels of an ASCII host can be read. -/
def isReadableHost (host : Text) : Bool := (Text.splitOn (.char '.') host).all isReadable

end LvglForest.Label
