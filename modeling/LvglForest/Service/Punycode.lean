import LvglForest.Text.Basic

/-!
# Punycode

Texts in ASCII that stand for texts of all characters, as the labels of hosts need them. The ASCII
characters come first, with a hyphen behind them. Then every other character is a number: how many
places for lesser characters, or for the same one, are passed over before it is put in. A number is
written with digits of 36 values, the least one first, and ends with the first digit below a
threshold; the thresholds follow the size of the numbers before.
-/

namespace LvglForest.Punycode

/-! ## Numbers -/

/-- The code point of a digit. -/
def digit (d : Nat) : CodePoint := .ofNat (if d < 26 then 0x61 + d else 0x30 + (d - 26))

/-- The value of a digit, which may be a capital. -/
def digitValue? (p : CodePoint) : Option Nat :=
  let n := p.value
  if 0x61 ≤ n && n ≤ 0x7A then some (n - 0x61)
  else if 0x41 ≤ n && n ≤ 0x5A then some (n - 0x41)
  else if 0x30 ≤ n && n ≤ 0x39 then some (n - 0x30 + 26)
  else none

/-- The threshold for the digit at a place. -/
def threshold (bias place : Nat) : Nat :=
  let k := 36 * (place + 1)
  if k ≤ bias then 1 else if bias + 26 ≤ k then 26 else k - bias

theorem threshold_pos (bias place : Nat) : 0 < threshold bias place := by
  simp only [threshold]
  split
  · omega
  · split <;> omega

/-- The digits of a number from a place on. -/
def number (bias place n : Nat) : Text :=
  let t := threshold bias place
  if n < t then [digit n]
  else digit (t + (n - t) % (36 - t)) :: number bias (place + 1) ((n - t) / (36 - t))
termination_by n
decreasing_by
  have := threshold_pos bias place
  exact Nat.lt_of_le_of_lt (Nat.div_le_self _ _) (by omega)

/-- The bias for numbers of a size, found place by place. -/
def biasOf (size bias : Nat) : Nat :=
  if 455 < size then biasOf (size / 35) (bias + 36) else bias + 36 * size / (size + 38)
termination_by size
decreasing_by exact Nat.div_lt_self (by omega) (by omega)

/-- The bias after a number that puts in the last of a count of characters. -/
def adapt (isFirst : Bool) (n count : Nat) : Nat :=
  let size := if isFirst then n / 700 else n / 2
  biasOf (size + size / count) 0

/-! ## Writing -/

/-- What is known while a text is written: the digits so far, and the number that grows until the
next character is put in. -/
structure Writer where
  digits : Text := []
  pending : Nat := 0
  bias : Nat := 72
  /-- How many characters of the text are settled. -/
  count : Nat
  isFirst : Bool := true

namespace Writer

/-- Passes over a character of the text, or puts it in if it is the one whose turn it is. -/
def visit (turn : Nat) (w : Writer) (n : Nat) : Writer :=
  if n < turn then { w with pending := w.pending + 1 }
  else if n = turn then
    { digits := w.digits ++ number w.bias 0 w.pending
      bias := adapt w.isFirst w.pending (w.count + 1)
      count := w.count + 1
      isFirst := false }
  else w

/-- Puts in the characters of a text in ascending order, from a character number on. -/
def putAll (text : List Nat) : Nat → List Nat → Writer → Writer
  | _, [], w => w
  | start, turn :: turns, w =>
    let w := { w with pending := w.pending + (turn - start) * (w.count + 1) }
    let w := text.foldl (visit turn) w
    putAll text (turn + 1) turns { w with pending := w.pending + 1 }

end Writer

/-- The ASCII text that stands for a text. -/
def encode (t : Text) : Text :=
  let text := t.map CodePoint.value
  let plain := t.filter (·.value < 0x80)
  let turns := ((text.filter (0x80 ≤ ·)).mergeSort fun a b => a ≤ b).eraseDups
  let written := Writer.putAll text 0x80 turns { count := plain.length }
  plain ++ (if plain.isEmpty then [] else [.char '-']) ++ written.digits

/-! ## Reading -/

/-- What is known while a text is read: the characters so far, and the number that is read. -/
structure Reader where
  text : Text
  turn : Nat := 0x80
  position : Nat := 0
  bias : Nat := 72
  number : Nat := 0
  weight : Nat := 1
  place : Nat := 0
  isFirst : Bool := true

namespace Reader

/-- Puts in the character that the number stands for, if there is one. -/
def put? (r : Reader) : Option Reader :=
  let count := r.text.length + 1
  let position := r.position + r.number
  let turn := r.turn + position / count
  let position := position % count
  if 0x10FFFF < turn then none
  else
    some
      { text := r.text.take position ++ .ofNat turn :: r.text.drop position
        turn
        position := position + 1
        bias := adapt r.isFirst r.number count
        isFirst := false }

/-- Reads a digit. -/
def step? (r : Reader) (p : CodePoint) : Option Reader :=
  match digitValue? p with
  | none => none
  | some d =>
    let t := threshold r.bias r.place
    let r := { r with number := r.number + d * r.weight }
    if d < t then r.put?
    else some { r with weight := r.weight * (36 - t), place := r.place + 1 }

end Reader

/-- The text that an ASCII text stands for. -/
def decode? (t : Text) : Option Text :=
  let digits := (t.reverse.takeWhile (· ≠ .char '-')).reverse
  let text := t.take (t.length - digits.length - 1)
  match digits.foldlM Reader.step? { text } with
  | some r => if r.place = 0 then some r.text else none
  | none => none

end LvglForest.Punycode
