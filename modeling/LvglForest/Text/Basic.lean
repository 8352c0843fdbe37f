/-!
# Texts

A text is a list of code points. A code point is a character, or a surrogate, which is no
character but can stand in a text all the same: a byte that cannot be decoded is kept as the
surrogate `0xDC00 + byte` (see `LvglForest.Text.Utf8`), and an exchange document may spell any
surrogate by its number.

Texts are lists so that every reader of them is a recursion on the list. A string literal is
coerced to the text of its characters.
-/

namespace LvglForest

/-- A code point: a character, or the surrogate `0xD800 + n`. -/
inductive CodePoint where
  | char (c : Char)
  | surrogate (n : Fin 0x800)
  deriving DecidableEq

/-- A sequence of code points. -/
abbrev Text := List CodePoint

namespace CodePoint

/-- The number of a code point. -/
def value : CodePoint → Nat
  | .char c => c.toNat
  | .surrogate n => 0xD800 + n.val

/-- The code point of a number. A number above the last code point has none and gives U+FFFD. -/
def ofNat (n : Nat) : CodePoint :=
  if h : 0xD800 ≤ n ∧ n < 0xE000 then .surrogate ⟨n - 0xD800, by omega⟩
  else if n < 0x110000 then .char (Char.ofNat n)
  else .char '\uFFFD'

/-- An ASCII letter. -/
def isAsciiLetter : CodePoint → Bool
  | .char c => ('a' ≤ c && c ≤ 'z') || ('A' ≤ c && c ≤ 'Z')
  | .surrogate _ => false

/-- A hexadecimal digit in ASCII. -/
def isHexDigit : CodePoint → Bool
  | .char c => ('0' ≤ c && c ≤ '9') || ('a' ≤ c && c ≤ 'f') || ('A' ≤ c && c ≤ 'F')
  | .surrogate _ => false

/-- The value of a hexadecimal digit in ASCII, `0` for anything else. -/
def hexValue : CodePoint → Nat
  | .char c =>
    if '0' ≤ c ∧ c ≤ '9' then c.toNat - 48
    else if 'a' ≤ c ∧ c ≤ 'f' then c.toNat - 87
    else if 'A' ≤ c ∧ c ≤ 'F' then c.toNat - 55
    else 0
  | .surrogate _ => 0

end CodePoint

namespace Text

/-- The characters of a string as a text. -/
def ofString (s : String) : Text := s.toList.map .char

instance : Coe String Text := ⟨ofString⟩

/-- A literal is made of its characters, so this opens one without a look at its bytes. -/
theorem ofString_ofList (cs : List Char) : ofString (String.ofList cs) = cs.map .char := by
  rw [ofString, String.toList_ofList]

/-- A text occurs in another one without a gap. -/
def hasInfix (needle : Text) : Text → Bool
  | [] => needle.isEmpty
  | c :: s => needle.isPrefixOf (c :: s) || hasInfix needle s

/-- The given texts with a separator between every two. -/
def join (sep : Text) : List Text → Text
  | [] => []
  | [t] => t
  | t :: u :: ts => t ++ sep ++ join sep (u :: ts)

/-- The parts between the occurrences of a separator: always one more than there are
separators. -/
def splitOn (sep : CodePoint) : Text → List Text
  | [] => [[]]
  | c :: s =>
    if c = sep then [] :: splitOn sep s
    else
      match splitOn sep s with
      | [] => [[c]]
      | part :: parts => (c :: part) :: parts

/-- Orders texts by the numbers of their code points. -/
def le : Text → Text → Bool
  | [], _ => true
  | _ :: _, [] => false
  | a :: s, b :: t => a.value < b.value || (a.value == b.value && le s t)

end Text

end LvglForest
