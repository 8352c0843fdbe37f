import LvglForest.Text.Blank
import LvglForest.Text.Utf8
import LvglForest.Value.Basic

/-!
# String literals

The string literals of C and the texts they stand for. A literal stands for bytes: an escape of a
letter or of one to three octal or one or two hexadecimal digits for one byte, every other code
point for the bytes of its encoding. Literals next to each other are joined byte by byte, and only
then are the bytes read as a text, with those kept that are no part of a character.

A text is written as one literal on one line: quotes, backslashes and control characters are
escaped, and kept bytes are written as octal escapes of three digits, after which no digit can be
mistaken for a part of the escape.
-/

namespace LvglForest.Literal

/-! ## Reading -/

/-- The byte of a one-letter escape. -/
def simpleEscape? : CodePoint → Option UInt8
  | .char '\\' => some 0x5C
  | .char '"' => some 0x22
  | .char '\'' => some 0x27
  | .char '?' => some 0x3F
  | .char 'n' => some 0x0A
  | .char 't' => some 0x09
  | .char 'r' => some 0x0D
  | .char 'a' => some 0x07
  | .char 'b' => some 0x08
  | .char 'f' => some 0x0C
  | .char 'v' => some 0x0B
  | _ => none

/-- An octal digit. -/
def isOctal (p : CodePoint) : Bool := 0x30 ≤ p.value && p.value ≤ 0x37

/-- The value of an octal digit. -/
def octalValue (p : CodePoint) : Nat := p.value - 0x30

/-- The bytes of a code point that is not escaped. -/
def plainBytes : CodePoint → Except Fault (List UInt8)
  | .char c => .ok (Utf8.encodeChar c)
  | p => .error (.unencodable "utf-8" p)

/-- Puts bytes before others. -/
def prepend (bytes : List UInt8) (rest : Except Fault (List UInt8)) : Except Fault (List UInt8) :=
  rest.map (bytes ++ ·)

/-- The bytes that the inside of a literal stands for. An escape that means nothing stands for the
escaped code point. -/
def decodeBody : Text → Except Fault (List UInt8)
  | [] => .ok []
  | [p] => plainBytes p
  | p :: q :: t =>
    if p = .char '\\' then
      match simpleEscape? q with
      | some b => prepend [b] (decodeBody t)
      | none =>
        if q = .char 'x' then
          match t with
          | a :: b :: r =>
            if a.isHexDigit then
              if b.isHexDigit then prepend [.ofNat (a.hexValue * 16 + b.hexValue)] (decodeBody r)
              else prepend [.ofNat a.hexValue] (decodeBody (b :: r))
            else prepend [0x78] (decodeBody (a :: b :: r))
          | [a] => if a.isHexDigit then .ok [.ofNat a.hexValue] else prepend [0x78] (decodeBody [a])
          | [] => .ok [0x78]
        else if isOctal q then
          match t with
          | a :: b :: r =>
            if isOctal a then
              if isOctal b then
                let n := octalValue q * 64 + octalValue a * 8 + octalValue b
                prepend [.ofNat n] (decodeBody r)
              else prepend [.ofNat (octalValue q * 8 + octalValue a)] (decodeBody (b :: r))
            else prepend [.ofNat (octalValue q)] (decodeBody (a :: b :: r))
          | [a] =>
            if isOctal a then .ok [.ofNat (octalValue q * 8 + octalValue a)]
            else prepend [.ofNat (octalValue q)] (decodeBody [a])
          | [] => .ok [.ofNat (octalValue q)]
        else
          match plainBytes q with
          | .error f => .error f
          | .ok bytes => prepend bytes (decodeBody t)
    else
      match plainBytes p with
      | .error f => .error f
      | .ok bytes => prepend bytes (decodeBody (q :: t))

/-- The bytes of a text without escapes. -/
def textBytes (t : Text) : Except Fault (List UInt8) := (t.mapM plainBytes).map List.flatten

/-- The bytes that a piece of the inside of a literal stands for after a piece with a backslash. No
number can be taken from pieces. -/
def escapedPiece (v : Value) : Except Fault (List UInt8) := do
  v.checkHashable
  match v with
  | .text t =>
    match t.head?.bind simpleEscape?, t.length with
    | some b, 1 => return [b]
    | _, _ =>
      if t = "x" ∨ Text.hasInfix t "01234567" then .error (.notText .list) else textBytes t
  | v => .error (.notPart v.shape)

/-- The bytes that the inside of a literal stands for, given in pieces. -/
def decodePieces : List Value → Except Fault (List UInt8)
  | [] => .ok []
  | .text t :: vs =>
    match t, vs with
    | [.char '\\'], w :: ws => do
      let bytes ← escapedPiece w
      prepend bytes (decodePieces ws)
    | t, vs => do
      let bytes ← textBytes t
      prepend bytes (decodePieces vs)
  | v :: _ => .error (.noMember v.shape.name "encode")

/-- The bytes that a value stands for as the inside of a literal: a text, or a list of pieces. -/
def decodeValue : Value → Except Fault (List UInt8)
  | .text t => decodeBody t
  | .list vs => decodePieces vs
  | .record [] => .ok []
  | .record _ => .error (.noKey 0)
  | v => .error (.notText v.shape)

/-- The inside of a literal, read after its opening quote, and the rest after its closing quote. -/
def body? : Text → Option (Text × Text)
  | [] => none
  | .char '"' :: t => some ([], t)
  | .char '\\' :: p :: t => (body? t).map fun (b, r) => (.char '\\' :: p :: b, r)
  | p :: t => if p = .char '\\' then none else (body? t).map fun (b, r) => (p :: b, r)

theorem length_lt_of_body? {t b r : Text} (h : body? t = some (b, r)) : r.length < t.length := by
  fun_induction body? t generalizing b r with
  | case1 => simp at h
  | case2 => simp only [Option.some.injEq, Prod.mk.injEq] at h; simp [h.2]
  | case3 p t ih =>
    obtain ⟨⟨b', r'⟩, h', e⟩ := Option.map_eq_some_iff.1 h
    have := ih h'
    simp only [Prod.mk.injEq] at e
    simp only [List.length_cons, ← e.2]
    omega
  | case4 => simp at h
  | case5 p t _ _ _ ih =>
    obtain ⟨⟨b', r'⟩, h', e⟩ := Option.map_eq_some_iff.1 h
    have := ih h'
    simp only [Prod.mk.injEq] at e
    simp only [List.length_cons, ← e.2]
    omega

/-- The insides of the literals that a text starts with, blanks between them left out, and whether
nothing else follows. -/
def bodies (t : Text) : List Text × Bool :=
  match h : t.stripStart with
  | [] => ([], true)
  | p :: r =>
    if p = .char '"' then
      match hb : body? r with
      | none => ([], false)
      | some (b, rest) =>
        have : rest.length < t.length := by
          have h1 := length_lt_of_body? hb
          have h2 : t.stripStart.length ≤ t.length := (List.dropWhile_suffix _).length_le
          rw [h] at h2
          simp only [List.length_cons] at h2
          omega
        let (bs, complete) := bodies rest
        (b :: bs, complete)
    else ([], false)
termination_by t.length

/-- The bytes that a sequence of literals stands for, none for a text that is no such sequence. -/
def bytes? (t : Text) : Except Fault (Option (List UInt8)) :=
  let (bs, complete) := bodies t.strip
  (bs.mapM decodeBody).map fun parts =>
    if complete && !bs.isEmpty then some parts.flatten else none

/-- The text that a sequence of literals stands for. -/
def decode? (t : Text) : Except Fault (Option Text) := (bytes? t).map (·.map Utf8.decode)

/-! ## Writing -/

/-- A byte as a backslash and three octal digits. -/
def octalEscape (n : Nat) : Text :=
  let digit (k : Nat) : CodePoint := .char (Char.ofNat (48 + k % 8))
  [.char '\\', digit (n / 64), digit (n / 8), digit n]

/-- How a code point is written inside a literal. -/
def encodePoint (p : CodePoint) : Text :=
  if p = .char '\\' ∨ p = .char '"' then [.char '\\', p]
  else if p = .char '\n' then "\\n"
  else if p = .char '\t' then "\\t"
  else if p = .char '\r' then "\\r"
  else if 0xDC80 ≤ p.value ∧ p.value ≤ 0xDCFF then octalEscape (p.value - 0xDC00)
  else if p.value < 0x20 ∨ p.value = 0x7F then octalEscape p.value
  else [p]

/-- The inside of the literal of a text. -/
def encodeBody (t : Text) : Text := t.flatMap encodePoint

/-- The literal of a text. -/
def encode (t : Text) : Text := .char '"' :: encodeBody t ++ [.char '"']

end LvglForest.Literal
