import LvglForest.Decimal.Integer
import LvglForest.Value.Basic

/-!
# Reading values

The JSON notation of values. A record keeps the last value given for a name, in the place of the
first. Numbers with a fraction or an exponent are floats, all others integers of up to 4300 digits.
`NaN`, `Infinity` and `-Infinity` are numbers too. Two escapes, one after the other, that spell the
halves of a surrogate pair make one character; any other surrogate stands for itself.
-/

namespace LvglForest.Value

/-- A blank between the parts of the notation. -/
def isGap (p : CodePoint) : Bool :=
  p = .char ' ' || p = .char '\t' || p = .char '\n' || p = .char '\r'

/-- Leaves out blanks. -/
def skipGap (t : Text) : Text := t.dropWhile isGap

/-! ## Texts -/

/-- The number that four hexadecimal digits write. -/
def fourHex? : Text → Option (Nat × Text)
  | a :: b :: c :: d :: t =>
    if a.isHexDigit && b.isHexDigit && c.isHexDigit && d.isHexDigit then
      some (((a.hexValue * 16 + b.hexValue) * 16 + c.hexValue) * 16 + d.hexValue, t)
    else none
  | _ => none

/-- What a one-letter escape stands for. -/
def simpleEscape? : CodePoint → Option CodePoint
  | .char '"' => some (.char '"')
  | .char '\\' => some (.char '\\')
  | .char '/' => some (.char '/')
  | .char 'b' => some (.char '\x08')
  | .char 'f' => some (.char '\x0c')
  | .char 'n' => some (.char '\n')
  | .char 'r' => some (.char '\r')
  | .char 't' => some (.char '\t')
  | _ => none

/-- The character that two halves of a surrogate pair make. -/
def pairedPoint? (high low : Nat) : Option CodePoint :=
  if 0xD800 ≤ high ∧ high < 0xDC00 ∧ 0xDC00 ≤ low ∧ low < 0xE000 then
    some (.ofNat (0x10000 + (high - 0xD800) * 0x400 + (low - 0xDC00)))
  else none

/-- The code point of an escaped number, and the rest. The escape of a low surrogate that follows
the one of a high surrogate belongs to it. -/
def escapedPoint (n : Nat) (t : Text) : CodePoint × Text :=
  match t with
  | .char '\\' :: .char 'u' :: r =>
    match (fourHex? r).bind fun (low, r) => (pairedPoint? n low).map (·, r) with
    | some (p, r) => (p, r)
    | none => (.ofNat n, t)
  | t => (.ofNat n, t)

/-- The code points up to the closing quote, and the rest. -/
def readText? : Nat → Text → Option (Text × Text)
  | 0, _ => none
  | fuel + 1, t =>
    match t with
    | [] => none
    | .char '"' :: r => some ([], r)
    | .char '\\' :: .char 'u' :: r =>
      match fourHex? r with
      | none => none
      | some (n, r) =>
        let (p, r) := escapedPoint n r
        (readText? fuel r).map fun (u, r) => (p :: u, r)
    | .char '\\' :: p :: r =>
      match simpleEscape? p with
      | none => none
      | some q => (readText? fuel r).map fun (u, r) => (q :: u, r)
    | p :: r =>
      if p.value < 0x20 then none
      else (readText? fuel r).map fun (u, r) => (p :: u, r)

/-! ## Numbers -/

/-- An ASCII digit. -/
def isAsciiDigit (p : CodePoint) : Bool := 0x30 ≤ p.value && p.value ≤ 0x39

/-- The number that ASCII digits write. -/
def digitsValue (t : Text) : Nat := Decimal.ofDigits (t.map (·.value - 0x30))

/-- A fraction: a point and at least one digit. The digits are returned. -/
def readFraction (t : Text) : Text × Text :=
  match t with
  | .char '.' :: r =>
    let digits := r.takeWhile isAsciiDigit
    if digits.isEmpty then ([], t) else (digits, r.dropWhile isAsciiDigit)
  | _ => ([], t)

/-- An exponent: a letter, a sign or none, and at least one digit. -/
def readExponent (t : Text) : Option Int × Text :=
  let after (r : Text) (sign : Int) : Option Int × Text :=
    let digits := r.takeWhile isAsciiDigit
    if digits.isEmpty then (none, t)
    else (some (sign * digitsValue digits), r.dropWhile isAsciiDigit)
  match t with
  | .char 'e' :: .char '-' :: r | .char 'E' :: .char '-' :: r => after r (-1)
  | .char 'e' :: .char '+' :: r | .char 'E' :: .char '+' :: r => after r 1
  | .char 'e' :: r | .char 'E' :: r => after r 1
  | _ => (none, t)

/-- A number after its sign: a single zero or digits that start with none, then a fraction and an
exponent, both optional. -/
def readNumber? (negative : Bool) (t : Text) : Option (Value × Text) :=
  let whole : Text :=
    match t with
    | .char '0' :: _ => "0"
    | _ => t.takeWhile isAsciiDigit
  if whole.isEmpty then none
  else
    let (fraction, r) := readFraction (t.drop whole.length)
    let (exponent, r) := readExponent r
    if fraction.isEmpty ∧ exponent.isNone then
      if Decimal.digitLimit < whole.length then none
      else
        let n := digitsValue whole
        some (.integer (if negative then -(n : Int) else n), r)
    else
      let digits := digitsValue (whole ++ fraction)
      some (.real (.ofDecimal negative digits (exponent.getD 0 - fraction.length)), r)

/-! ## Values -/

mutual

/-- A value and the rest of the text after it. -/
def readValue? : Nat → Text → Option (Value × Text)
  | 0, _ => none
  | fuel + 1, t =>
    match t with
    | .char '"' :: r =>
      (readText? (r.length + 1) r).map fun (u, r) => (.text u, r)
    | .char '[' :: r =>
      match skipGap r with
      | .char ']' :: r => some (.list [], r)
      | r => (readItems? fuel r).map fun (vs, r) => (.list vs, r)
    | .char '\x7b' :: r =>
      match skipGap r with
      | .char '\x7d' :: r => some (.record [], r)
      | r => (readFields? fuel [] r).map fun (fs, r) => (.record fs, r)
    | .char 'n' :: .char 'u' :: .char 'l' :: .char 'l' :: r => some (.null, r)
    | .char 't' :: .char 'r' :: .char 'u' :: .char 'e' :: r => some (.truth true, r)
    | .char 'f' :: .char 'a' :: .char 'l' :: .char 's' :: .char 'e' :: r => some (.truth false, r)
    | .char '-' :: r =>
      match ("Infinity" : Text).isPrefixOf? r with
      | some r => some (.real (.infinity true), r)
      | none => readNumber? true r
    | t =>
      match ("NaN" : Text).isPrefixOf? t, ("Infinity" : Text).isPrefixOf? t with
      | some r, _ => some (.real .nan, r)
      | none, some r => some (.real (.infinity false), r)
      | none, none => readNumber? false t

/-- The items of a list that has some, up to its closing bracket. -/
def readItems? : Nat → Text → Option (List Value × Text)
  | 0, _ => none
  | fuel + 1, t =>
    match readValue? fuel (skipGap t) with
    | none => none
    | some (v, r) =>
      match skipGap r with
      | .char ',' :: r => (readItems? fuel r).map fun (vs, r) => (v :: vs, r)
      | .char ']' :: r => some ([v], r)
      | _ => none

/-- The fields of a record that has some, after those already read, up to its closing brace. -/
def readFields? : Nat → Table Value → Text → Option (Table Value × Text)
  | 0, _, _ => none
  | fuel + 1, fs, t =>
    match skipGap t with
    | .char '"' :: r =>
      match readText? (r.length + 1) r with
      | none => none
      | some (name, r) =>
        match skipGap r with
        | .char ':' :: r =>
          match readValue? fuel (skipGap r) with
          | none => none
          | some (v, r) =>
            let fs := fs.put name v
            match skipGap r with
            | .char ',' :: r => readFields? fuel fs r
            | .char '\x7d' :: r => some (fs, r)
            | _ => none
        | _ => none
    | _ => none

end

/-- The value that a whole text writes. -/
def read? (t : Text) : Option Value :=
  match readValue? (2 * t.length + 2) (skipGap t) with
  | some (v, r) => if (skipGap r).isEmpty then some v else none
  | none => none

end LvglForest.Value
