import LvglForest.Fault
import LvglForest.Text.Blank
import LvglForest.Text.Digit

/-!
# Integers in decimal

Writing and reading integers. At most 4300 digits are converted in either direction.

A written integer may be read with blanks around it, one sign, the digits of any script, leading
zeros and single underscores between digits. The ASCII separators U+001C to U+001F are no blanks
here.
-/

namespace LvglForest.Decimal

/-- The most digits that are converted. -/
def digitLimit : Nat := 4300

/-! ## Writing -/

/-- An integer in decimal, unless it has too many digits. -/
def write (n : Int) : Except Fault Text :=
  if (ofNat n.natAbs).length ≤ digitLimit then .ok (ofInt n) else .error (.digitLimit none)

/-! ## Reading -/

/-- A blank that may stand around an integer. -/
def isMargin (p : CodePoint) : Bool :=
  p.isBlank && !(0x1C ≤ p.value && p.value ≤ 0x1F)

/-- A decimal digit or an underscore. -/
def isDigitOrJoint (p : CodePoint) : Bool := p = .char '_' || p.isDecimal

/-- The values of the digits of a run in which underscores stand only between digits. The flag says
whether a digit stands before the run. -/
def digitRun? (afterDigit : Bool) : Text → Option (List Nat)
  | [] => if afterDigit then some [] else none
  | p :: t =>
    if p = .char '_' then if afterDigit then digitRun? false t else none
    else
      match p.decimalValue? with
      | some d => (digitRun? true t).map (d :: ·)
      | none => none

/-- The number with the given digits. -/
def ofDigits (digits : List Nat) : Nat := digits.foldl (fun n d => n * 10 + d) 0

/-- Reads digits and what follows them; nothing but blanks may. -/
def readNat? (t : Text) : Option (Except Nat Nat) :=
  match digitRun? false (t.takeWhile isDigitOrJoint) with
  | none => none
  | some digits =>
    if digitLimit < digits.length then some (.error digits.length)
    else if (t.dropWhile isDigitOrJoint).all isMargin then some (.ok (ofDigits digits))
    else none

/-- The integer that a text writes. -/
def read (t : Text) : Except Fault Int :=
  let signed : Option (Except Nat Int) :=
    match t.dropWhile isMargin with
    | .char '-' :: r => (readNat? r).map (·.map fun n => -(n : Int))
    | .char '+' :: r => (readNat? r).map (·.map Int.ofNat)
    | r => (readNat? r).map (·.map Int.ofNat)
  match signed with
  | some (.ok n) => .ok n
  | some (.error count) => .error (.digitLimit (some count))
  | none => .error (.notInteger t)

end LvglForest.Decimal
