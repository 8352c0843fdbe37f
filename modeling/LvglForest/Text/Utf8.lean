import LvglForest.Text.Basic

/-!
# Bytes of texts

UTF-8 with undecodable bytes kept. Decoding reads the longest prefix that is the encoding of a
character; a byte where none starts is kept as the surrogate `0xDC00 + byte`, one byte at a time.
Encoding gives such a surrogate back as its byte. Overlong forms, encoded surrogates and numbers
above U+10FFFF are no encodings of a character.

Strict decoding and encoding refuse what the tolerant ones keep, and name the place and the reason.
-/

namespace LvglForest

namespace CodePoint

/-- The surrogate that keeps a byte from `0x80` on. -/
def ofStrayByte (b : UInt8) : CodePoint := ofNat (0xDC00 + b.toNat)

/-- The byte that a surrogate keeps. -/
def strayByte? : CodePoint → Option UInt8
  | .char _ => none
  | .surrogate n =>
    if 0x480 ≤ n.val ∧ n.val < 0x500 then some (UInt8.ofNat (n.val - 0x400)) else none

/-- A surrogate of any number. -/
def isSurrogate : CodePoint → Bool
  | .char _ => false
  | .surrogate _ => true

end CodePoint

namespace Utf8

/-- The bytes of a character: one, two, three or four, as its number needs 7, 11, 16 or 21
bits. -/
def encodeChar (c : Char) : List UInt8 :=
  let n := c.toNat
  if n < 0x80 then [.ofNat n]
  else if n < 0x800 then [.ofNat (0xC0 + n / 0x40), .ofNat (0x80 + n % 0x40)]
  else if n < 0x10000 then
    [.ofNat (0xE0 + n / 0x1000), .ofNat (0x80 + n / 0x40 % 0x40), .ofNat (0x80 + n % 0x40)]
  else
    [.ofNat (0xF0 + n / 0x40000), .ofNat (0x80 + n / 0x1000 % 0x40),
      .ofNat (0x80 + n / 0x40 % 0x40), .ofNat (0x80 + n % 0x40)]

/-- A byte that continues a character. -/
def isContinuation (b : UInt8) : Bool := 0x80 ≤ b && b < 0xC0

/-- A byte that may follow the first byte of a character: a continuation, and after some first
bytes only a part of those, which leaves out overlong forms, surrogates and too large numbers. -/
def mayFollow (first second : UInt8) : Bool :=
  isContinuation second &&
    (if first == 0xE0 then 0xA0 ≤ second
     else if first == 0xED then second < 0xA0
     else if first == 0xF0 then 0x90 ≤ second
     else if first == 0xF4 then second < 0x90
     else true)

/-- Six bits of a continuation byte. -/
def payload (b : UInt8) : Nat := b.toNat % 0x40

/-- The character that the bytes start with, and how many of them it takes. -/
def first? : List UInt8 → Option (Char × Nat)
  | [] => none
  | a :: r =>
    if a < 0x80 then some (Char.ofNat a.toNat, 1)
    else if a < 0xC2 then none
    else if a < 0xE0 then
      match r with
      | b :: _ =>
        if isContinuation b then some (Char.ofNat (a.toNat % 0x20 * 0x40 + payload b), 2) else none
      | _ => none
    else if a < 0xF0 then
      match r with
      | b :: c :: _ =>
        if mayFollow a b && isContinuation c then
          some (Char.ofNat (a.toNat % 0x10 * 0x1000 + payload b * 0x40 + payload c), 3)
        else none
      | _ => none
    else if a < 0xF5 then
      match r with
      | b :: c :: d :: _ =>
        if mayFollow a b && isContinuation c && isContinuation d then
          let n := a.toNat % 0x08 * 0x40000 + payload b * 0x1000 + payload c * 0x40 + payload d
          some (Char.ofNat n, 4)
        else none
      | _ => none
    else none

/-- Decodes bytes of which the first `skip` are used up. -/
def decodeFrom : Nat → List UInt8 → Text
  | _, [] => []
  | skip + 1, _ :: r => decodeFrom skip r
  | 0, b :: r =>
    match first? (b :: r) with
    | some (c, n) => .char c :: decodeFrom (n - 1) r
    | none => .ofStrayByte b :: decodeFrom 0 r

/-- The text of any bytes: what is no character is kept byte by byte. -/
def decode (bytes : List UInt8) : Text := decodeFrom 0 bytes

/-- The bytes of a code point. Surrogates that keep no byte have none. -/
def encodePoint? : CodePoint → Option (List UInt8)
  | .char c => some (encodeChar c)
  | p => p.strayByte?.map ([·])

/-- The bytes of a text with its kept bytes given back. -/
def encode? (t : Text) : Option (List UInt8) := (t.mapM encodePoint?).map List.flatten

/-- The bytes of a text without surrogates; otherwise the first surrogate. -/
def encodeStrict : Text → Except CodePoint (List UInt8)
  | [] => .ok []
  | .char c :: t => (encodeStrict t).map (encodeChar c ++ ·)
  | p :: _ => .error p

/-! ## Strict decoding -/

/-- Why bytes are not the encoding of a text. -/
inductive Defect where
  | invalidStart
  | invalidContinuation
  | unexpectedEnd
  | notAscii
  deriving DecidableEq

/-- The first place where bytes cannot be decoded: where it begins, how many bytes it takes, the
first of them, and the reason. -/
structure DecodeError where
  position : Nat
  length : Nat
  byte : UInt8
  defect : Defect

/-- The defect of bytes that start with no character, and how many bytes belong to it: a first byte
and those after it that could still have continued it. -/
def defectOf : List UInt8 → Nat × Defect
  | [] => (0, .unexpectedEnd)
  | a :: r =>
    if a < 0xC2 || 0xF5 ≤ a then (1, .invalidStart)
    else if a < 0xE0 then
      match r with
      | [] => (1, .unexpectedEnd)
      | _ => (1, .invalidContinuation)
    else
      match r with
      | [] => (1, .unexpectedEnd)
      | b :: r =>
        if !mayFollow a b then (1, .invalidContinuation)
        else
          match r with
          | [] => (2, .unexpectedEnd)
          | c :: r =>
            if !isContinuation c then (2, .invalidContinuation)
            else if r.isEmpty then (3, .unexpectedEnd) else (3, .invalidContinuation)

/-- Decodes bytes from a position on, of which the first `skip` are used up. -/
def decodeStrictFrom : Nat → Nat → List UInt8 → Except DecodeError Text
  | _, _, [] => .ok []
  | position, skip + 1, _ :: r => decodeStrictFrom (position + 1) skip r
  | position, 0, b :: r =>
    match first? (b :: r) with
    | some (c, n) => (decodeStrictFrom (position + 1) (n - 1) r).map (.char c :: ·)
    | none =>
      let (length, defect) := defectOf (b :: r)
      .error ⟨position, length, b, defect⟩

/-- The text of bytes that are all parts of characters. -/
def decodeStrict (bytes : List UInt8) : Except DecodeError Text := decodeStrictFrom 0 0 bytes

/-! ## Decoding that replaces -/

/-- Decodes bytes of which the first `skip` are used up. -/
def decodeReplacingFrom : Nat → List UInt8 → Text
  | _, [] => []
  | skip + 1, _ :: r => decodeReplacingFrom skip r
  | 0, b :: r =>
    match first? (b :: r) with
    | some (c, n) => .char c :: decodeReplacingFrom (n - 1) r
    | none => .char '\uFFFD' :: decodeReplacingFrom ((defectOf (b :: r)).1 - 1) r

/-- The text of any bytes, with U+FFFD for each run of bytes that belongs to no character. -/
def decodeReplacing (bytes : List UInt8) : Text := decodeReplacingFrom 0 bytes

/-! ## Decoding that passes surrogates -/

/-- The surrogate that the bytes start with, encoded in three bytes as a character would be. -/
def firstSurrogate? : List UInt8 → Option CodePoint
  | a :: b :: c :: _ =>
    if a == 0xED && 0xA0 ≤ b && isContinuation b && isContinuation c then
      some (.ofNat (0xD000 + payload b * 0x40 + payload c))
    else none
  | _ => none

/-- Decodes bytes of which the first `skip` are used up. -/
def decodePassingFrom : Nat → List UInt8 → Option Text
  | _, [] => some []
  | skip + 1, _ :: r => decodePassingFrom skip r
  | 0, b :: r =>
    match first? (b :: r), firstSurrogate? (b :: r) with
    | some (c, n), _ => (decodePassingFrom (n - 1) r).map (.char c :: ·)
    | none, some p => (decodePassingFrom 2 r).map (p :: ·)
    | none, none => none

/-- The text of bytes that are all parts of characters or of encoded surrogates. -/
def decodePassing (bytes : List UInt8) : Option Text := decodePassingFrom 0 bytes

end Utf8

namespace Ascii

/-- The text of bytes below `0x80`. -/
def decodeStrictFrom (position : Nat) : List UInt8 → Except Utf8.DecodeError Text
  | [] => .ok []
  | b :: r =>
    if b < 0x80 then (decodeStrictFrom (position + 1) r).map (.char (Char.ofNat b.toNat) :: ·)
    else .error ⟨position, 1, b, .notAscii⟩

/-- The bytes of a text of ASCII characters; otherwise the first other code point. -/
def encodeStrict : Text → Except CodePoint (List UInt8)
  | [] => .ok []
  | p :: t => if p.value < 0x80 then (encodeStrict t).map (.ofNat p.value :: ·) else .error p

end Ascii

end LvglForest
