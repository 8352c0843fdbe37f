import LvglForest.Proofs.Source.Reread

/-!
# Integer literals

What the source language means by an integer literal: digits in base ten, eight or sixteen, as their
beginning says, an optional suffix and an optional minus sign (`Numeral.Unsigned`,
`Numeral.Signed`).

A literal with a letter in it is kept as it is written. A literal of digits alone is read in base
ten, whatever its beginning says, unless it has too many digits to be converted. Base ten and base
eight agree on numbers below eight only, so what is written for a literal denotes the same number
unless the literal is a longer octal one (`Numeral.Signed.operand_iff`). The same holds inside a
percentage, where a literal with too many digits is a fault instead
(`Numeral.Signed.percent_iff`).
-/

namespace LvglForest

/-! ## Digits in a base -/

namespace Numeral

/-- A digit below a base, in ASCII. -/
def isDigit (base : Nat) (p : CodePoint) : Bool := p.isHexDigit && p.hexValue < base

/-- The number that digits write in a base. -/
def value (base : Nat) (ds : Text) : Nat := ds.foldl (fun n p => n * base + p.hexValue) 0

theorem value_concat (base : Nat) (ds : Text) (p : CodePoint) :
    value base (ds ++ [p]) = value base ds * base + p.hexValue := by
  rw [value, List.foldl_concat, value]

theorem value_zero_cons (base : Nat) (ds : Text) :
    value base (.char '0' :: ds) = value base ds := by
  have hzero : (CodePoint.char '0').hexValue = 0 := by decide
  rw [value, List.foldl_cons, hzero, Nat.zero_mul, value]

theorem value_lt {base : Nat} {ds : Text} (h : ∀ p ∈ ds, isDigit base p = true) :
    value base ds < base ^ ds.length := by
  induction ds using List.reverseRecOn with
  | nil => exact Nat.one_pos
  | append_singleton ds p ih =>
    rw [List.forall_mem_append, List.forall_mem_singleton] at h
    have hp : p.hexValue < base := by
      have hdigit := h.2
      rw [isDigit, Bool.and_eq_true, decide_eq_true_eq] at hdigit
      exact hdigit.2
    have hstep : (value base ds + 1) * base ≤ base ^ ds.length * base :=
      Nat.mul_le_mul_right base (ih h.1)
    rw [value_concat, List.length_append, List.length_singleton, Nat.pow_succ]
    rw [Nat.succ_mul] at hstep
    omega

/-- **Base eight and base ten** agree on the numbers of one digit only. -/
theorem value_octal {ds : Text} (h : ∀ p ∈ ds, isDigit 8 p = true) :
    value 8 ds ≤ value 10 ds ∧ (value 10 ds = value 8 ds ↔ value 8 ds < 8) := by
  induction ds using List.reverseRecOn with
  | nil => decide
  | append_singleton ds p ih =>
    rw [List.forall_mem_append, List.forall_mem_singleton] at h
    have hp : p.hexValue < 8 := by
      have hdigit := h.2
      rw [isDigit, Bool.and_eq_true, decide_eq_true_eq] at hdigit
      exact hdigit.2
    obtain ⟨hle, hiff⟩ := ih h.1
    rw [value_concat, value_concat]
    omega

/-! ## Literals -/

/-- What may follow the digits: a mark for unsigned numbers and one for long numbers. -/
def suffixes : List Text :=
  let unsigned : List Text := ["", "u", "U"]
  let long : List Text := ["", "l", "L", "ll", "LL"]
  unsigned.flatMap fun u => long.flatMap fun l => [u ++ l, l ++ u]

/-- A literal and the number that it denotes. -/
inductive Unsigned : Text → Nat → Prop
  /-- A decimal literal does not start with a zero. -/
  | decimal {ds s : Text} (hne : ds ≠ []) (hfirst : ds.head? ≠ some (.char '0'))
      (hds : ∀ p ∈ ds, isDigit 10 p = true) (hs : s ∈ suffixes) :
      Unsigned (ds ++ s) (value 10 ds)
  | octal {ds s : Text} (hds : ∀ p ∈ ds, isDigit 8 p = true) (hs : s ∈ suffixes) :
      Unsigned (.char '0' :: ds ++ s) (value 8 ds)
  | hexadecimal {x : CodePoint} {ds s : Text} (hx : x = .char 'x' ∨ x = .char 'X') (hne : ds ≠ [])
      (hds : ∀ p ∈ ds, isDigit 16 p = true) (hs : s ∈ suffixes) :
      Unsigned (.char '0' :: x :: ds ++ s) (value 16 ds)

/-- A literal, perhaps behind a minus sign, and the integer that it denotes. Its type, at the width
of which an unsigned number wraps, plays no role. -/
inductive Signed : Text → Int → Prop
  | positive {t : Text} {n : Nat} (h : Unsigned t n) : Signed t n
  | negative {t : Text} {n : Nat} (h : Unsigned t n) : Signed (.char '-' :: t) (-n)

/-- A literal without its minus sign. -/
def unsigned (t : Text) : Text := if t.head? = some (.char '-') then t.tail else t

/-- Digits alone, perhaps behind a minus sign. -/
def IsPlain (t : Text) : Prop := ∀ p ∈ unsigned t, isDigit 10 p = true

/-- Octal digits alone that denote a number of more than one digit, and not too many of them: a
literal that is taken for a decimal one and so denotes another number. -/
structure IsMisread (t : Text) (n : Int) : Prop where
  plain : IsPlain t
  octal : (unsigned t).head? = some (.char '0')
  converts : (unsigned t).length ≤ Decimal.digitLimit
  large : 8 ≤ n.natAbs

/-! ## Digits in base ten -/

/-- The blanks and the decimal digits have no code point in common. -/
theorem isDecimal_of_isBlank {p : CodePoint} (h : p.isBlank = true) : p.isDecimal = false := by
  have hapart : ∀ z ∈ decimalZeros, ∀ r ∈ blankRanges, r.2 < z ∨ z + 10 ≤ r.1 := by decide
  rw [CodePoint.isBlank, Ranges.contains, List.any_eq_true] at h
  obtain ⟨r, hr, hin⟩ := h
  rw [Bool.and_eq_true, decide_eq_true_eq, decide_eq_true_eq] at hin
  have hnone : decimalZeros.find? (fun z => z ≤ p.value && p.value < z + 10) = none := by
    rw [List.find?_eq_none]
    intro z hz
    rw [Bool.and_eq_true, decide_eq_true_eq, decide_eq_true_eq]
    have := hapart z hz r hr
    omega
  rw [CodePoint.isDecimal, CodePoint.decimalValue?, hnone]
  rfl

theorem isDigit_mono {base base' : Nat} (h : base ≤ base') {p : CodePoint}
    (hp : isDigit base p = true) : isDigit base' p = true := by
  rw [isDigit, Bool.and_eq_true, decide_eq_true_eq] at hp ⊢
  exact ⟨hp.1, Nat.lt_of_lt_of_le hp.2 h⟩

/-- A decimal digit of ASCII as a digit in base ten. -/
theorem isDigit_char {c : Char} (h : c.isDigit = true) :
    isDigit 10 (.char c) = true ∧ (CodePoint.char c).hexValue = c.toNat - 48 := by
  have hbounds : '0' ≤ c ∧ c ≤ '9' := by simpa [Char.isDigit, Char.le_def] using h
  have hlast : c.toNat ≤ 57 := UInt32.le_iff_toNat_le.1 hbounds.2
  have hvalue : (CodePoint.char c).hexValue = c.toNat - 48 := by
    rw [CodePoint.hexValue, if_pos hbounds]
  refine ⟨?_, hvalue⟩
  rw [isDigit, hvalue, Bool.and_eq_true, decide_eq_true_eq, CodePoint.isHexDigit]
  simp only [hbounds, decide_true, Bool.and_self, Bool.true_or, true_and]
  omega

/-- The letters among the hexadecimal digits have values from ten on. -/
theorem exists_char {p : CodePoint} (h : isDigit 10 p = true) :
    ∃ c : Char, c.isDigit = true ∧ p = .char c := by
  rw [isDigit, Bool.and_eq_true, decide_eq_true_eq] at h
  obtain ⟨hhex, hlt⟩ := h
  cases p with
  | surrogate n => cases hhex
  | char c =>
    simp only [CodePoint.isHexDigit, Bool.or_eq_true, Bool.and_eq_true, decide_eq_true_eq] at hhex
    rw [CodePoint.hexValue] at hlt
    by_cases hdigit : '0' ≤ c ∧ c ≤ '9'
    · refine ⟨c, ?_, rfl⟩
      simpa [Char.isDigit, Char.le_def] using hdigit
    · rw [if_neg hdigit] at hlt
      have hletter : 'a' ≤ c ∧ c ≤ 'f' ∨ 'A' ≤ c ∧ c ≤ 'F' :=
        hhex.elim (fun h => h.elim (fun h => absurd h hdigit) .inl) .inr
      rcases hletter with hlower | hupper
      · have hbound : 97 ≤ c.toNat := UInt32.le_iff_toNat_le.1 hlower.1
        rw [if_pos hlower] at hlt
        omega
      · have hbound : 65 ≤ c.toNat := UInt32.le_iff_toNat_le.1 hupper.1
        split at hlt
        · next hlower =>
          have hbound' : 97 ≤ c.toNat := UInt32.le_iff_toNat_le.1 hlower.1
          omega
        · omega

theorem isDecimal_of_isDigit {p : CodePoint} (h : isDigit 10 p = true) : p.isDecimal = true := by
  obtain ⟨c, hc, rfl⟩ := exists_char h
  rw [CodePoint.isDecimal, (Decimal.digit_char hc).1]
  rfl

theorem isDigitOrJoint_of_digits {ds : Text} (h : ∀ p ∈ ds, isDigit 10 p = true) :
    ∀ p ∈ ds, Decimal.isDigitOrJoint p = true := by
  intro p hp
  rw [Decimal.isDigitOrJoint, isDecimal_of_isDigit (h p hp), Bool.or_true]

theorem exists_chars {ds : Text} (h : ∀ p ∈ ds, isDigit 10 p = true) :
    ∃ cs : List Char, ds = cs.map .char ∧ ∀ c ∈ cs, c.isDigit = true := by
  induction ds with
  | nil => exact ⟨[], rfl, nofun⟩
  | cons p ds ih =>
    rw [List.forall_mem_cons] at h
    obtain ⟨c, hc, rfl⟩ := exists_char h.1
    obtain ⟨cs, rfl, hcs⟩ := ih h.2
    exact ⟨c :: cs, rfl, List.forall_mem_cons.2 ⟨hc, hcs⟩⟩

theorem value_chars {cs : List Char} (h : ∀ c ∈ cs, c.isDigit = true) :
    value 10 (cs.map .char) = Decimal.ofDigits (cs.map fun c => c.toNat - 48) := by
  induction cs using List.reverseRecOn with
  | nil => rfl
  | append_singleton cs c ih =>
    rw [List.forall_mem_append, List.forall_mem_singleton] at h
    rw [List.map_append, List.map_singleton, value_concat, ih h.1, (isDigit_char h.2).2,
      List.map_append, List.map_singleton, Decimal.ofDigits, Decimal.ofDigits, List.foldl_concat]

/-- Digits are read in base ten, if there are not too many of them. -/
theorem readNat?_digits {ds : Text} (hne : ds ≠ []) (h : ∀ p ∈ ds, isDigit 10 p = true) :
    Decimal.readNat? ds =
      some (if Decimal.digitLimit < ds.length then .error ds.length else .ok (value 10 ds)) := by
  have hall := isDigitOrJoint_of_digits h
  obtain ⟨cs, rfl, hcs⟩ := exists_chars h
  have hrun : Decimal.digitRun? false (cs.map CodePoint.char) =
      some (cs.map fun c => c.toNat - 48) := by
    obtain ⟨c, cs, rfl⟩ := List.exists_cons_of_ne_nil (List.map_eq_nil_iff.not.1 hne)
    rw [List.forall_mem_cons] at hcs
    obtain ⟨hdigit, hjoint, -⟩ := Decimal.digit_char hcs.1
    rw [List.map_cons, Decimal.digitRun?, if_neg hjoint, hdigit]
    simp only [Decimal.digitRun?_digits hcs.2]
    rfl
  rw [Decimal.readNat?, List.takeWhile_eq_self_iff.2 hall, hrun, List.dropWhile_eq_nil_iff.2 hall,
    value_chars hcs]
  simp only [List.length_map, List.all_nil, if_true]
  split <;> rfl

/-- The letters of literals. -/
def letters : List CodePoint := [.char 'x', .char 'X', .char 'u', .char 'U', .char 'l', .char 'L']

/-- A text with a letter is not of digits alone. -/
theorem not_digits_of_letter {ds r : Text} {q : CodePoint} (hq : q ∈ letters) :
    ¬ ∀ p ∈ ds ++ q :: r, isDigit 10 p = true := by
  have hnone : ∀ q ∈ letters, isDigit 10 q = false := by decide
  intro h
  have hdigit := h q (List.mem_append_right _ List.mem_cons_self)
  rw [hnone q hq] at hdigit
  cases hdigit

/-- Digits before a letter are not read. -/
theorem readNat?_letter {ds s : Text} {q : CodePoint} (h : ∀ p ∈ ds, isDigit 10 p = true)
    (hq : q ∈ letters) (m : Nat) : Decimal.readNat? (ds ++ q :: s) ≠ some (.ok m) := by
  have hletters : ∀ q ∈ letters, Decimal.isDigitOrJoint q = false ∧ Decimal.isMargin q = false := by
    decide
  obtain ⟨hjoint, hmargin⟩ := hletters q hq
  have hall := isDigitOrJoint_of_digits h
  have hdrop : (ds ++ q :: s).dropWhile Decimal.isDigitOrJoint = q :: s := by
    rw [List.dropWhile_append_of_pos hall, List.dropWhile_cons, hjoint]
    rfl
  intro hread
  rw [Decimal.readNat?, hdrop] at hread
  split at hread
  · cases hread
  · split at hread
    · cases hread
    · simp [hmargin] at hread

/-! ## Literals in base ten -/

theorem eq_nil_or_letter {s : Text} (hs : s ∈ suffixes) :
    s = [] ∨ ∃ q r, s = q :: r ∧ q ∈ letters := by
  have hall : ∀ s ∈ suffixes, s = [] ∨ ∃ q ∈ s.head?, q ∈ letters := by decide
  rcases hall s hs with rfl | ⟨q, hq, hletter⟩
  · exact .inl rfl
  · obtain ⟨r, rfl⟩ := List.head?_eq_some_iff.1 hq
    exact .inr ⟨q, r, rfl, hletter⟩

/-- **A literal is of digits alone**, and then its first digit says what it denotes, or there are
digits before a letter in it. -/
theorem Unsigned.plain_or_letter {t : Text} {n : Nat} (h : Unsigned t n) :
    t ≠ [] ∧ (∀ p ∈ t, isDigit 10 p = true) ∧
        (t.head? ≠ some (.char '0') ∧ n = value 10 t ∨
          t.head? = some (.char '0') ∧ (∀ p ∈ t, isDigit 8 p = true) ∧ n = value 8 t) ∨
      ∃ ds q r, t = ds ++ q :: r ∧ ds ≠ [] ∧ (∀ p ∈ ds, isDigit 10 p = true) ∧ q ∈ letters := by
  cases h with
  | @decimal ds s hne hfirst hds hs =>
    rcases eq_nil_or_letter hs with rfl | ⟨q, r, rfl, hq⟩
    · rw [List.append_nil]
      exact .inl ⟨hne, hds, .inl ⟨hfirst, rfl⟩⟩
    · exact .inr ⟨ds, q, r, rfl, hne, hds, hq⟩
  | @octal ds s hds hs =>
    have hall : ∀ p ∈ CodePoint.char '0' :: ds, isDigit 8 p = true :=
      List.forall_mem_cons.2 ⟨by decide, hds⟩
    have hten : ∀ p ∈ CodePoint.char '0' :: ds, isDigit 10 p = true :=
      fun p hp => isDigit_mono (by decide) (hall p hp)
    rcases eq_nil_or_letter hs with rfl | ⟨q, r, rfl, hq⟩
    · rw [List.append_nil]
      exact .inl ⟨List.cons_ne_nil _ _, hten, .inr ⟨rfl, hall, (value_zero_cons 8 ds).symm⟩⟩
    · exact .inr ⟨_, q, r, rfl, List.cons_ne_nil _ _, hten, hq⟩
  | @hexadecimal x ds s hx hne hds hs =>
    refine .inr ⟨[.char '0'], x, ds ++ s, rfl, List.cons_ne_nil _ _, by decide, ?_⟩
    rcases hx with rfl | rfl <;> decide

/-- A literal starts with a digit. -/
theorem Unsigned.exists_cons {t : Text} {n : Nat} (h : Unsigned t n) :
    ∃ p r, t = p :: r ∧ isDigit 10 p = true := by
  rcases h.plain_or_letter with ⟨hne, hall, -⟩ | ⟨ds, q, r, rfl, hne, hall, -⟩
  · obtain ⟨p, r, rfl⟩ := List.exists_cons_of_ne_nil hne
    exact ⟨p, r, rfl, hall p List.mem_cons_self⟩
  · obtain ⟨p, ds, rfl⟩ := List.exists_cons_of_ne_nil hne
    exact ⟨p, ds ++ q :: r, rfl, hall p List.mem_cons_self⟩

/-- What is read of a literal without a sign. -/
theorem Unsigned.readNat?_eq_ok_iff {t : Text} {n k : Nat} (h : Unsigned t n) :
    Decimal.readNat? t = some (.ok k) ↔
      (∀ p ∈ t, isDigit 10 p = true) ∧ t.length ≤ Decimal.digitLimit ∧ k = value 10 t := by
  rcases h.plain_or_letter with ⟨hne, hall, -⟩ | ⟨ds, q, r, rfl, -, hall, hq⟩
  · rw [readNat?_digits hne hall]
    by_cases hlong : Decimal.digitLimit < t.length
    · rw [if_pos hlong]
      constructor
      · intro hread
        cases hread
      · rintro ⟨-, hle, -⟩
        exact absurd hlong (Nat.not_lt.2 hle)
    · rw [if_neg hlong]
      constructor
      · intro hread
        cases hread
        exact ⟨hall, Nat.le_of_not_lt hlong, rfl⟩
      · rintro ⟨-, -, rfl⟩
        rfl
  · constructor
    · intro hread
      exact absurd hread (readNat?_letter hall hq k)
    · rintro ⟨hplain, -⟩
      exact absurd hplain (not_digits_of_letter hq)

/-- Base ten is right but for octal literals of numbers from eight on. -/
theorem Unsigned.value_eq_iff {t : Text} {n : Nat} (h : Unsigned t n)
    (hplain : ∀ p ∈ t, isDigit 10 p = true) :
    value 10 t = n ↔ ¬ (t.head? = some (.char '0') ∧ 8 ≤ n) := by
  rcases h.plain_or_letter with ⟨-, -, ⟨hhead, rfl⟩ | ⟨hhead, hall, rfl⟩⟩ | ⟨ds, q, r, rfl, -, -, hq⟩
  · simp [hhead]
  · rw [(value_octal hall).2, hhead]
    simp
  · exact absurd hplain (not_digits_of_letter hq)

theorem unsigned_minus (t : Text) : unsigned (.char '-' :: t) = t := if_pos rfl

theorem Unsigned.unsigned_eq {t : Text} {n : Nat} (h : Unsigned t n) : unsigned t = t := by
  obtain ⟨p, r, rfl, hp⟩ := h.exists_cons
  refine if_neg fun hhead => ?_
  cases hhead
  cases hp

end Numeral

/-! ## Reading literals -/

namespace Decimal

/-- What starts with no sign is read as a number without one. -/
theorem read_cons_eq_ok_iff {p : CodePoint} {r : Text} {m : Int} (hp : p.isWord = true) :
    read (p :: r) = .ok m ↔ ∃ k, readNat? (p :: r) = some (.ok k) ∧ m = (k : Int) := by
  have hminus : p ≠ .char '-' := by
    rintro rfl
    cases hp
  have hplus : p ≠ .char '+' := by
    rintro rfl
    cases hp
  have hdrop : (p :: r).dropWhile isMargin = p :: r := by
    rw [List.dropWhile_cons, isMargin_of_isWord hp, if_neg Bool.false_ne_true]
  unfold read
  simp only [hdrop]
  split
  all_goals next hsigned =>
    split at hsigned
    · next heq => exact absurd (List.cons.inj heq).1 hminus
    · next heq => exact absurd (List.cons.inj heq).1 hplus
    · rcases hread : readNat? (p :: r) with - | count | k
      all_goals
        rw [hread] at hsigned
        cases hsigned
      all_goals simp [eq_comm]

theorem read_eq_ok_iff_of_digit {p : CodePoint} {r : Text} {m : Int}
    (hp : Numeral.isDigit 10 p = true) :
    read (p :: r) = .ok m ↔ ∃ k, readNat? (p :: r) = some (.ok k) ∧ m = (k : Int) := by
  rw [Numeral.isDigit, Bool.and_eq_true] at hp
  exact read_cons_eq_ok_iff (CodePoint.isWord_of_isHexDigit hp.1)

theorem read_minus_eq_ok_iff {r : Text} {m : Int} :
    read (.char '-' :: r) = .ok m ↔ ∃ k, readNat? r = some (.ok k) ∧ m = -(k : Int) := by
  have hdrop : (CodePoint.char '-' :: r).dropWhile isMargin = .char '-' :: r := by
    rw [List.dropWhile_cons, if_neg (by decide)]
  unfold read
  simp only [hdrop]
  rcases readNat? r with - | count | k
  · simp
  · simp [Except.map]
  · simp [Except.map, eq_comm]

end Decimal

namespace Numeral

variable {t : Text} {n : Int}

/-- What is read of a literal, and when it is the number that the literal denotes. -/
theorem Signed.exists_reading (h : Signed t n) :
    ∃ k : Int,
      (∀ m, Decimal.read t = .ok m ↔
        (IsPlain t ∧ (unsigned t).length ≤ Decimal.digitLimit) ∧ m = k) ∧
      (IsPlain t → (k = n ↔ ¬ ((unsigned t).head? = some (.char '0') ∧ 8 ≤ n.natAbs))) := by
  cases h with
  | @positive t k h =>
    obtain ⟨p, r, rfl, hp⟩ := h.exists_cons
    refine ⟨(value 10 (p :: r) : Nat), fun m => ?_, fun hplain => ?_⟩
    · simp only [Decimal.read_eq_ok_iff_of_digit hp, h.readNat?_eq_ok_iff, IsPlain, h.unsigned_eq,
        and_assoc, exists_and_left, exists_eq_left]
    · rw [IsPlain, h.unsigned_eq] at hplain
      rw [h.unsigned_eq, Int.natAbs_natCast, ← h.value_eq_iff hplain, Int.natCast_inj]
  | @negative t k h =>
    refine ⟨-(value 10 t : Nat), fun m => ?_, fun hplain => ?_⟩
    · simp only [Decimal.read_minus_eq_ok_iff, h.readNat?_eq_ok_iff, IsPlain, unsigned_minus,
        and_assoc, exists_and_left, exists_eq_left]
    · rw [IsPlain, unsigned_minus] at hplain
      rw [unsigned_minus, Int.natAbs_neg, Int.natAbs_natCast, ← h.value_eq_iff hplain, Int.neg_inj,
        Int.natCast_inj]

/-- A literal is read exactly if it is of digits alone and has not too many of them. -/
theorem Signed.exists_read_iff (h : Signed t n) :
    (∃ m, Decimal.read t = .ok m) ↔ IsPlain t ∧ (unsigned t).length ≤ Decimal.digitLimit := by
  obtain ⟨k, hread, -⟩ := h.exists_reading
  simp only [hread, exists_and_left, exists_eq, and_true]

/-- What is read of a literal is what it denotes unless it is misread. -/
theorem Signed.eq_iff_of_read (h : Signed t n) {m : Int} (hread : Decimal.read t = .ok m) :
    m = n ↔ ¬ IsMisread t n := by
  obtain ⟨k, hiff, hvalue⟩ := h.exists_reading
  obtain ⟨⟨hplain, hlength⟩, rfl⟩ := (hiff m).1 hread
  have hmisread : IsMisread t n ↔ (unsigned t).head? = some (.char '0') ∧ 8 ≤ n.natAbs :=
    ⟨fun h => ⟨h.octal, h.large⟩, fun h => ⟨hplain, h.1, hlength, h.2⟩⟩
  rw [hvalue hplain, hmisread]

/-! ## Written integers as literals -/

theorem digits_ofNat (k : Nat) :
    (∀ p ∈ Decimal.ofNat k, isDigit 10 p = true) ∧ value 10 (Decimal.ofNat k) = k := by
  have hdigits : ∀ c ∈ Nat.toDigits 10 k, c.isDigit = true := fun c hc =>
    Nat.isDigit_of_mem_toDigits (by decide) (by decide) hc
  constructor
  · intro p hp
    obtain ⟨c, hc, rfl⟩ := Decimal.mem_ofNat hp
    exact (isDigit_char hc).1
  · rw [Decimal.ofNat, value_chars hdigits, Decimal.ofDigits_toDigits]

/-- Zero alone is written with a zero at the beginning. -/
theorem ofNat_of_head? {k : Nat} (h : (Decimal.ofNat k).head? = some (.char '0')) :
    Decimal.ofNat k = [.char '0'] ∧ k = 0 := by
  obtain ⟨hdigits, hvalue⟩ := digits_ofNat k
  obtain ⟨ds, hds⟩ := List.head?_eq_some_iff.1 h
  rw [hds] at hdigits hvalue
  rw [value_zero_cons] at hvalue
  have hnil : ds = [] := by
    by_contra hne
    have hlt := value_lt (List.forall_mem_cons.1 hdigits).2
    have hle := (Decimal.length_ofNat_le_iff (List.length_pos_iff.2 hne)).2 (hvalue ▸ hlt)
    rw [hds, List.length_cons] at hle
    omega
  subst hnil
  exact ⟨hds, hvalue.symm⟩

theorem unsigned_ofNat_iff {k n : Nat} : Unsigned (Decimal.ofNat k) n ↔ n = k := by
  obtain ⟨hdigits, hvalue⟩ := digits_ofNat k
  constructor
  · intro h
    rcases h.plain_or_letter with ⟨-, -, ⟨-, rfl⟩ | ⟨hhead, -, rfl⟩⟩ | ⟨ds, q, r, heq, -, -, hq⟩
    · exact hvalue
    · obtain ⟨hzero, rfl⟩ := ofNat_of_head? hhead
      rw [hzero]
      decide
    · exact absurd (heq ▸ hdigits) (not_digits_of_letter hq)
  · rintro rfl
    by_cases hhead : (Decimal.ofNat n).head? = some (.char '0')
    · obtain ⟨hzero, rfl⟩ := ofNat_of_head? hhead
      exact @Unsigned.octal [] [] nofun (by decide)
    · have h := Unsigned.decimal (Decimal.isWord_ofNat n).ne_nil hhead hdigits (s := []) (by decide)
      rwa [List.append_nil, hvalue] at h

theorem signed_minus_iff : Signed (.char '-' :: t) n ↔ ∃ k, Unsigned t k ∧ n = -(k : Int) := by
  constructor
  · intro h
    cases h with
    | positive h =>
      obtain ⟨p, r, heq, hp⟩ := h.exists_cons
      cases heq
      cases hp
    | negative h => exact ⟨_, h, rfl⟩
  · rintro ⟨k, h, rfl⟩
    exact .negative h

theorem signed_iff_of_head? (hhead : t.head? ≠ some (.char '-')) :
    Signed t n ↔ ∃ k, Unsigned t k ∧ n = (k : Int) := by
  constructor
  · intro h
    cases h with
    | positive h => exact ⟨_, h, rfl⟩
    | negative h => exact absurd rfl hhead
  · rintro ⟨k, h, rfl⟩
    exact .positive h

/-- **A written integer** is a literal of itself. -/
theorem signed_ofInt_iff {m : Int} : Signed (Decimal.ofInt m) n ↔ n = m := by
  cases m with
  | ofNat k =>
    have hhead : (Decimal.ofNat k).head? ≠ some (.char '-') := by
      intro hhead
      have hdigit := (digits_ofNat k).1 _ (List.mem_of_mem_head? hhead)
      cases hdigit
    simp only [Decimal.ofInt, signed_iff_of_head? hhead, unsigned_ofNat_iff, exists_eq_left]
    rfl
  | negSucc k =>
    simp only [Decimal.ofInt, signed_minus_iff, unsigned_ofNat_iff, exists_eq_left]
    rfl

/-! ## Literals as arguments -/

theorem Unsigned.isWord {k : Nat} (h : Unsigned t k) : t.IsWord := by
  have hsuffix : ∀ s ∈ suffixes, ∀ p ∈ s, p.isWord = true := by decide
  have hdigit {base : Nat} {p : CodePoint} (hp : isDigit base p = true) : p.isWord = true :=
    CodePoint.isWord_of_isHexDigit (Bool.and_eq_true _ _ ▸ hp).1
  have hne : t ≠ [] := by
    obtain ⟨p, r, rfl, -⟩ := h.exists_cons
    exact List.cons_ne_nil _ _
  refine ⟨hne, ?_⟩
  cases h with
  | decimal _ _ hds hs =>
    exact List.forall_mem_append.2 ⟨fun p hp => hdigit (hds p hp), hsuffix _ hs⟩
  | octal hds hs =>
    refine List.forall_mem_append.2 ⟨?_, hsuffix _ hs⟩
    exact List.forall_mem_cons.2 ⟨by decide, fun p hp => hdigit (hds p hp)⟩
  | hexadecimal hx _ hds hs =>
    refine List.forall_mem_append.2 ⟨?_, hsuffix _ hs⟩
    rw [List.forall_mem_cons, List.forall_mem_cons]
    exact ⟨by decide, by rcases hx with rfl | rfl <;> decide, fun p hp => hdigit (hds p hp)⟩

/-- A literal is written like an argument. -/
theorem Signed.isToken (h : Signed t n) : Arguments.IsToken t := by
  cases h with
  | positive h => exact .word h.isWord
  | negative h => exact .marked (.inl rfl) h.isWord

theorem Signed.not_mem (h : Signed t n) : .char '(' ∉ t := by
  cases h with
  | positive h => exact h.isWord.not_mem rfl
  | negative h =>
    rw [List.mem_cons, not_or]
    exact ⟨by decide, h.isWord.not_mem rfl⟩

/-- **What is written for a literal** denotes the same number unless the literal is misread. -/
theorem Signed.operand_iff (h : Signed t n) :
    ∃ u, (Operand.ofSource t).toValue.display = .ok u ∧ (Signed u n ↔ ¬ IsMisread t n) := by
  have hstrip : t.strip = t := Text.strip_eq_self h.isToken.isArgument.trimmed
  cases hread : Decimal.read t with
  | ok m =>
    refine ⟨Decimal.ofInt m, ?_, ?_⟩
    · rw [Operand.ofSource, hstrip, hread]
      exact Decimal.write_of_converts (Decimal.converts_of_read hread)
    · rw [signed_ofInt_iff, ← h.eq_iff_of_read hread, eq_comm]
  | error f =>
    refine ⟨t, ?_, iff_of_true h fun hmisread => ?_⟩
    · rw [Operand.ofSource, hstrip, hread]
      rfl
    · obtain ⟨m, hm⟩ := h.exists_read_iff.2 ⟨hmisread.plain, hmisread.converts⟩
      cases hread.symm.trans hm

/-- A literal is a size of its own. -/
theorem Signed.size_eq (h : Signed t n) :
    Size.ofSource t = .ok (.plain (Operand.ofSource t).toValue) := by
  have hstrip : t.strip = t := Text.strip_eq_self h.isToken.isArgument.trimmed
  apply Size.ofSource_of_not_mem
  · rw [hstrip]
    exact h.isToken.isArgument.ne_nil
  · rw [hstrip]
    exact h.not_mem

/-! ## Literals in percentages -/

/-- A call that makes a percentage of what stands in it, with blanks around its parentheses. -/
def IsPercentOf (t lit : Text) : Prop :=
  ∃ a b c : Text, (∀ p ∈ a ++ b ++ c, p.isBlank = true) ∧
    t = ("LV_PCT" : Text) ++ (a ++ .char '(' :: (b ++ (lit ++ (c ++ [.char ')']))))

/-- Digits, and what follows them: a suffix is known by its letter. -/
theorem Signed.exists_digits (h : Signed t n) :
    ∃ sign ds s, t = sign ++ (ds ++ s) ∧ (sign = [] ∨ sign = [.char '-']) ∧ ds ≠ [] ∧
      (∀ p ∈ ds, isDigit 10 p = true) ∧
      (IsPlain t ∧ s = [] ∨ ¬ IsPlain t ∧ ∃ q r, s = q :: r ∧ q ∈ letters) := by
  have hunsigned {r : Text} {k : Nat} (h : Unsigned r k) :
      ∃ ds s, r = ds ++ s ∧ ds ≠ [] ∧ (∀ p ∈ ds, isDigit 10 p = true) ∧
        ((∀ p ∈ r, isDigit 10 p = true) ∧ s = [] ∨
          (¬ ∀ p ∈ r, isDigit 10 p = true) ∧ ∃ q r, s = q :: r ∧ q ∈ letters) := by
    rcases h.plain_or_letter with ⟨hne, hall, -⟩ | ⟨ds, q, r, rfl, hne, hds, hq⟩
    · exact ⟨r, [], (List.append_nil r).symm, hne, hall, .inl ⟨hall, rfl⟩⟩
    · exact ⟨ds, q :: r, rfl, hne, hds, .inr ⟨not_digits_of_letter hq, q, r, rfl, hq⟩⟩
  cases h with
  | positive h =>
    rw [IsPlain, h.unsigned_eq]
    obtain ⟨ds, s, heq, hrest⟩ := hunsigned h
    exact ⟨[], ds, s, heq, .inl rfl, hrest⟩
  | @negative r k h =>
    rw [IsPlain, unsigned_minus]
    obtain ⟨ds, s, heq, hrest⟩ := hunsigned h
    exact ⟨[.char '-'], ds, s, congrArg (.char '-' :: ·) heq, .inr rfl, hrest⟩

/-- Digits in a percentage are found if nothing but the closing parenthesis follows them. -/
theorem percentArgument?_digits {a b sign ds s : Text} (ha : ∀ p ∈ a, p.isBlank = true)
    (hb : ∀ p ∈ b, p.isBlank = true) (hsign : sign = [] ∨ sign = [.char '-']) (hne : ds ≠ [])
    (hds : ∀ p ∈ ds, isDigit 10 p = true) (hs : ∀ p, s.head? = some p → p.isDecimal = false) :
    Size.percentArgument? (("LV_PCT" : Text) ++ (a ++ .char '(' :: (b ++ (sign ++ (ds ++ s))))) =
      if Text.stripStart s = [.char ')'] then some (sign ++ ds) else none := by
  have hname : ("LV_PCT" : Text).isPrefixOf?
      (("LV_PCT" : Text) ++ (a ++ .char '(' :: (b ++ (sign ++ (ds ++ s))))) =
        some (a ++ .char '(' :: (b ++ (sign ++ (ds ++ s)))) := by
    rw [List.isPrefixOf?_eq_some_iff_append_eq]
  have hopen (r : Text) : Text.stripStart (a ++ .char '(' :: r) = .char '(' :: r :=
    List.dropWhile_append_of_pos ha
  obtain ⟨p, ds', rfl⟩ := List.exists_cons_of_ne_nil hne
  have hp : p.isBlank = false ∧ p ≠ .char '-' := by
    obtain ⟨c, hc, rfl⟩ := exists_char (hds p List.mem_cons_self)
    refine ⟨CodePoint.isBlank_of_isWord (Decimal.digit_char hc).2.2, ?_⟩
    rintro heq
    cases heq
    cases hc
  have hinner : Text.stripStart (b ++ (sign ++ (p :: ds' ++ s))) = sign ++ (p :: ds' ++ s) := by
    rw [Text.stripStart, List.dropWhile_append_of_pos hb]
    refine Text.stripStart_of_head fun q hq => ?_
    rcases hsign with rfl | rfl <;> cases hq
    · exact hp.1
    · rfl
  have hdecimal : ∀ q ∈ p :: ds', q.isDecimal = true := fun q hq => isDecimal_of_isDigit (hds q hq)
  have htake : s.takeWhile CodePoint.isDecimal = [] := by
    cases s with
    | nil => rfl
    | cons q r => rw [List.takeWhile_cons, hs q rfl, if_neg Bool.false_ne_true]
  have hdrop : s.dropWhile CodePoint.isDecimal = s := by
    cases s with
    | nil => rfl
    | cons q r => rw [List.dropWhile_cons, hs q rfl, if_neg Bool.false_ne_true]
  have hfirst : (if (sign ++ (p :: ds' ++ s)).head? = some (.char '-') then [.char '-'] else []) =
      sign := by
    rcases hsign with rfl | rfl
    · exact if_neg fun heq => hp.2 (Option.some.inj heq)
    · rfl
  unfold Size.percentArgument?
  simp only [hname, hopen, hinner, hfirst, List.drop_left,
    List.takeWhile_append_of_pos hdecimal, List.dropWhile_append_of_pos hdecimal, htake, hdrop,
    List.append_nil]
  simp

variable {lit : Text}

/-- A literal is found in a percentage exactly if it is of digits alone. -/
theorem IsPercentOf.percentArgument?_eq (ht : IsPercentOf t lit) (h : Signed lit n) :
    (IsPlain lit → Size.percentArgument? t = some lit) ∧
      (¬ IsPlain lit → Size.percentArgument? t = none) := by
  obtain ⟨a, b, c, hblank, rfl⟩ := ht
  rw [List.forall_mem_append, List.forall_mem_append] at hblank
  obtain ⟨⟨ha, hb⟩, hc⟩ := hblank
  obtain ⟨sign, ds, s, rfl, hsign, hne, hds, hs⟩ := h.exists_digits
  have htext (r : Text) : sign ++ (ds ++ s) ++ r = sign ++ (ds ++ (s ++ r)) := by
    simp only [List.append_assoc]
  rw [htext]
  rcases hs with ⟨hplain, rfl⟩ | ⟨hletter, q, r, rfl, hq⟩
  · refine ⟨fun _ => ?_, fun hletter => absurd hplain hletter⟩
    have hclose : Text.stripStart (c ++ [.char ')']) = [.char ')'] :=
      List.dropWhile_append_of_pos hc
    rw [List.nil_append, percentArgument?_digits ha hb hsign hne hds, if_pos hclose, List.append_nil]
    intro p hp
    cases c with
    | nil =>
      cases hp
      rfl
    | cons blank c =>
      cases hp
      exact isDecimal_of_isBlank (hc _ List.mem_cons_self)
  · refine ⟨fun hplain => absurd hplain hletter, fun _ => ?_⟩
    have hletters : ∀ q ∈ letters, q.isDecimal = false ∧ q.isBlank = false ∧ q ≠ .char ')' := by
      decide
    obtain ⟨hdecimal, hblank, hclose⟩ := hletters q hq
    rw [percentArgument?_digits ha hb hsign hne hds, if_neg]
    · rw [List.cons_append, Text.stripStart_of_head]
      · exact fun heq => hclose (List.cons.inj heq).1
      · intro p hp
        cases hp
        exact hblank
    · intro p hp
      cases hp
      exact hdecimal

theorem IsPercentOf.isTrimmed (ht : IsPercentOf t lit) : t.IsTrimmed := by
  obtain ⟨a, b, c, -, rfl⟩ := ht
  simp only [← List.append_assoc, ← List.cons_append]
  exact .wrap (p := .char 'L') rfl rfl _

/-- A percentage is no integer. -/
theorem IsPercentOf.operand_eq (ht : IsPercentOf t lit) : Operand.ofSource t = .token t := by
  have hstrip : t.strip = t := Text.strip_eq_self ht.isTrimmed
  cases hread : Decimal.read t with
  | ok m =>
    obtain ⟨a, b, c, -, rfl⟩ := ht
    obtain ⟨k, hk, -⟩ := (Decimal.read_cons_eq_ok_iff (p := .char 'L') rfl).1 hread
    exact absurd hk (@readNat?_letter [] _ _ (List.forall_mem_nil _) (by decide) k)
  | error f => rw [Operand.ofSource, hstrip, hread]

/-- An integer stands alone in what is written for its percentage. -/
theorem isPercentOf_ofInt_iff {m : Int} :
    IsPercentOf ("LV_PCT(" ++ Decimal.ofInt m ++ ")") lit ↔ lit = Decimal.ofInt m := by
  constructor
  · rintro ⟨a, b, c, hblank, heq⟩
    have hname : ("LV_PCT(" : Text) ++ Decimal.ofInt m ++ (")" : Text) =
        ("LV_PCT" : Text) ++ .char '(' :: (Decimal.ofInt m ++ [.char ')']) := rfl
    rw [hname, List.append_cancel_left_eq] at heq
    obtain rfl : a = [] := by
      cases a with
      | nil => rfl
      | cons p a =>
        cases (List.cons.inj heq).1
        cases hblank _ List.mem_cons_self
    rw [List.nil_append, List.cons.injEq, ← List.append_assoc, ← List.append_assoc,
      List.append_cancel_right_eq] at heq
    have htrimmed := (Arguments.IsToken.ofInt m).isArgument.trimmed
    rw [heq.2] at htrimmed ⊢
    obtain rfl : b = [] := by
      cases b with
      | nil => rfl
      | cons p b => cases (htrimmed.head p rfl).symm.trans (hblank p List.mem_cons_self)
    obtain rfl : c = [] := by
      rcases List.eq_nil_or_concat' c with hnil | ⟨c, p, rfl⟩
      · exact hnil
      · have hlast := htrimmed.last p (by rw [← List.append_assoc, List.getLast?_concat])
        rw [hblank p (by simp)] at hlast
        cases hlast
    rw [List.nil_append, List.append_nil]
  · rintro rfl
    exact ⟨[], [], [], nofun, rfl⟩

/-- **What is made of a percentage of a literal.** It is a size unless the literal has digits alone
and too many of them, and what is written for it is a percentage of the same number unless the
literal is misread. -/
theorem Signed.percent_iff (h : Signed lit n) (ht : IsPercentOf t lit) :
    ((∃ s, Size.ofSource t = .ok s) ↔
        ¬ (IsPlain lit ∧ Decimal.digitLimit < (unsigned lit).length)) ∧
      ∀ s, Size.ofSource t = .ok s → ∃ u, s.toSource = .ok u ∧
        ((∃ lit', IsPercentOf u lit' ∧ Signed lit' n) ↔ ¬ IsMisread lit n) := by
  obtain ⟨hplain, hletter⟩ := ht.percentArgument?_eq h
  have hstrip : t.strip = t := Text.strip_eq_self ht.isTrimmed
  have hempty : t.isEmpty = false := by
    obtain ⟨a, b, c, -, rfl⟩ := ht
    rfl
  by_cases hdigits : IsPlain lit
  · have hsize : Size.ofSource t =
        (Decimal.read lit).map fun m => .percent (.integer m) := by
      rw [Size.ofSource]
      simp only [hstrip, hempty, hplain hdigits, Bool.false_eq_true, if_false]
    have hread := h.exists_read_iff
    rw [hsize]
    constructor
    · constructor
      · rintro ⟨s, hs⟩ ⟨-, hlong⟩
        obtain ⟨m, hm, -⟩ := exists_of_map_eq_ok hs
        exact absurd (hread.1 ⟨m, hm⟩).2 (Nat.not_le.2 hlong)
      · intro hshort
        obtain ⟨m, hm⟩ := hread.2 ⟨hdigits, Nat.not_lt.1 fun hlong => hshort ⟨hdigits, hlong⟩⟩
        exact ⟨_, congrArg _ hm⟩
    · intro s hs
      obtain ⟨m, hm, rfl⟩ := exists_of_map_eq_ok hs
      refine ⟨("LV_PCT(" : Text) ++ Decimal.ofInt m ++ (")" : Text), ?_, ?_⟩
      · have hdisplay : (Value.integer m).display = .ok (Decimal.ofInt m) :=
          Decimal.write_of_converts (Decimal.converts_of_read hm)
        rw [Size.toSource, hdisplay]
        rfl
      · simp only [isPercentOf_ofInt_iff, exists_eq_left, signed_ofInt_iff,
          ← h.eq_iff_of_read hm, eq_comm]
  · have hsize : Size.ofSource t = .ok (.plain (.text t)) := by
      rw [Size.ofSource]
      simp only [hstrip, hempty, hletter hdigits, ht.operand_eq, Bool.false_eq_true, if_false]
      rfl
    rw [hsize]
    refine ⟨iff_of_true ⟨_, rfl⟩ fun hlong => hdigits hlong.1, fun s hs => ?_⟩
    cases hs
    exact ⟨t, rfl, iff_of_true ⟨lit, ht, h⟩ fun hmisread => hdigits hmisread.plain⟩

end Numeral

end LvglForest
