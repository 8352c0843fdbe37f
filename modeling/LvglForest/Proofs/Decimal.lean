import LvglForest.Decimal.Integer
import LvglForest.Proofs.Text.Word
import Mathlib.Algebra.Group.Nat.Defs

/-!
# Integers read back

What is written for an integer is a run of digits, perhaps after a minus sign, so it is read as the
same integer wherever it stands between blanks (`read_ofInt`). The limit on the digits counts the
same digits in both directions, so whatever is read can be written (`converts_of_read`).
-/

namespace LvglForest.Decimal

/-- An integer that has not too many digits to be converted. -/
def Converts (n : Int) : Prop := (ofNat n.natAbs).length ≤ digitLimit

instance (n : Int) : Decidable (Converts n) :=
  inferInstanceAs (Decidable ((ofNat n.natAbs).length ≤ digitLimit))

theorem write_of_converts {n : Int} (h : Converts n) : write n = .ok (ofInt n) := if_pos h

theorem write_of_not_converts {n : Int} (h : ¬ Converts n) : write n = .error (.digitLimit none) :=
  if_neg h

theorem length_ofNat_le_iff {n limit : Nat} (h : 0 < limit) :
    (ofNat n).length ≤ limit ↔ n < 10 ^ limit := by
  rw [ofNat, List.length_map, Nat.length_toDigits_le_iff (by decide) h]

theorem converts_iff {n : Int} : Converts n ↔ n.natAbs < 10 ^ digitLimit :=
  length_ofNat_le_iff (by decide)

theorem converts_of_lt {n : Int} (h : n.natAbs < 10 ^ digitLimit) : Converts n :=
  converts_iff.2 h

/-! ## Digits -/

/-- A decimal digit of ASCII among code points. -/
theorem digit_char {c : Char} (h : c.isDigit = true) :
    (CodePoint.char c).decimalValue? = some (c.toNat - 48) ∧
      CodePoint.char c ≠ .char '_' ∧ (CodePoint.char c).isWord = true := by
  have hc : 48 ≤ c.toNat ∧ c.toNat ≤ 57 := by
    simpa [Char.isDigit, UInt32.le_iff_toNat_le] using h
  refine ⟨?_, ?_, ?_⟩
  · have hfirst : (decide (48 ≤ (CodePoint.char c).value) &&
        decide ((CodePoint.char c).value < 48 + 10)) = true := by
      rw [Bool.and_eq_true, decide_eq_true_eq, decide_eq_true_eq]
      exact ⟨hc.1, Nat.lt_succ_of_le hc.2⟩
    rw [CodePoint.decimalValue?, decimalZeros, List.find?_cons, hfirst]
    rfl
  · intro he
    cases he
    cases h
  · have hlow : (CodePoint.char c).value < 0x80 := Nat.lt_of_le_of_lt hc.2 (by decide)
    rw [CodePoint.isWord, CodePoint.isAlphanumeric, if_pos hlow]
    simp only [Bool.or_eq_true, Bool.and_eq_true, decide_eq_true_eq]
    exact .inr (.inl (.inl hc))

theorem mem_ofNat {n : Nat} {p : CodePoint} (h : p ∈ ofNat n) :
    ∃ c : Char, c.isDigit = true ∧ p = .char c := by
  obtain ⟨c, hc, rfl⟩ := List.mem_map.1 h
  exact ⟨c, Nat.isDigit_of_mem_toDigits (by decide) (by decide) hc, rfl⟩

theorem isWord_ofNat (n : Nat) : (ofNat n).IsWord where
  ne_nil := by simp [ofNat, Nat.toDigits_ne_nil]
  all p hp := by
    obtain ⟨c, hc, rfl⟩ := mem_ofNat hp
    exact (digit_char hc).2.2

theorem digitRun?_digits {ds : List Char} (h : ∀ c ∈ ds, c.isDigit = true) :
    digitRun? true (ds.map .char) = some (ds.map fun c => c.toNat - 48) := by
  induction ds with
  | nil => rfl
  | cons c ds ih =>
    rw [List.forall_mem_cons] at h
    obtain ⟨hvalue, hjoint, -⟩ := digit_char h.1
    rw [List.map_cons, digitRun?, if_neg hjoint, hvalue, List.map_cons, ih h.2]
    rfl

theorem digitRun?_ofNat (n : Nat) :
    digitRun? false (ofNat n) = some ((Nat.toDigits 10 n).map fun c => c.toNat - 48) := by
  have hdigits : ∀ c ∈ Nat.toDigits 10 n, c.isDigit = true := fun c hc =>
    Nat.isDigit_of_mem_toDigits (by decide) (by decide) hc
  obtain ⟨c, ds, hds⟩ := List.exists_cons_of_ne_nil (Nat.toDigits_ne_nil (n := n) (b := 10))
  rw [ofNat, hds]
  rw [hds, List.forall_mem_cons] at hdigits
  obtain ⟨hvalue, hjoint, -⟩ := digit_char hdigits.1
  rw [List.map_cons, digitRun?, if_neg hjoint, hvalue, List.map_cons, digitRun?_digits hdigits.2]
  rfl

theorem ofDigits_toDigits (n : Nat) :
    ofDigits ((Nat.toDigits 10 n).map fun c => c.toNat - 48) = n := by
  have hfold (ds : List Char) (start : Nat) :
      (ds.map fun c => c.toNat - 48).foldl (fun n d => n * 10 + d) start =
        Nat.ofDigitChars 10 ds start := by
    induction ds generalizing start with
    | nil => rfl
    | cons c ds ih =>
      rw [List.map_cons, List.foldl_cons, ih, Nat.ofDigitChars, Nat.ofDigitChars, List.foldl_cons,
        Nat.mul_comm]
      rfl
  rw [ofDigits, hfold, Nat.ofDigitChars_ten_toDigits]

theorem ofNat_injective : Function.Injective ofNat := by
  intro m n h
  have hdigits : Nat.toDigits 10 m = Nat.toDigits 10 n :=
    List.map_injective_iff.2 (fun _ _ h => CodePoint.char.inj h) h
  rw [← ofDigits_toDigits m, hdigits, ofDigits_toDigits]

/-! ## Reading -/

theorem readNat?_ofNat {n : Nat} (h : (ofNat n).length ≤ digitLimit) :
    readNat? (ofNat n) = some (.ok n) := by
  have hall : ∀ p ∈ ofNat n, isDigitOrJoint p = true := by
    intro p hp
    obtain ⟨c, hc, rfl⟩ := mem_ofNat hp
    rw [isDigitOrJoint, CodePoint.isDecimal, (digit_char hc).1]
    simp
  have htake : (ofNat n).takeWhile isDigitOrJoint = ofNat n := List.takeWhile_eq_self_iff.2 hall
  have hdrop : (ofNat n).dropWhile isDigitOrJoint = [] := List.dropWhile_eq_nil_iff.2 hall
  have hlength : ¬ digitLimit < ((Nat.toDigits 10 n).map fun c => c.toNat - 48).length := by
    rw [ofNat, List.length_map] at h
    rw [List.length_map]
    omega
  rw [readNat?, htake, hdrop, digitRun?_ofNat]
  simp only [if_neg hlength, List.all_nil, if_true, ofDigits_toDigits]

theorem isMargin_of_isWord {p : CodePoint} (h : p.isWord = true) : isMargin p = false := by
  rw [isMargin, CodePoint.isBlank_of_isWord h]
  rfl

/-- **A written integer is read back.** -/
theorem read_ofInt {n : Int} (h : Converts n) : read (ofInt n) = .ok n := by
  cases n with
  | ofNat n =>
    obtain ⟨p, t, hp⟩ := List.exists_cons_of_ne_nil (isWord_ofNat n).ne_nil
    have hword : p.isWord = true := (isWord_ofNat n).all p (by simp [hp])
    have hminus : p ≠ .char '-' := by rintro rfl; cases hword
    have hplus : p ≠ .char '+' := by rintro rfl; cases hword
    have hdrop : (ofInt (.ofNat n)).dropWhile isMargin = ofNat n := by
      show (ofNat n).dropWhile isMargin = ofNat n
      rw [hp, List.dropWhile_cons, isMargin_of_isWord hword, if_neg Bool.false_ne_true]
    have hread := readNat?_ofNat (n := n) h
    rw [hp] at hread hdrop
    unfold read
    simp only [hdrop]
    split
    all_goals next hm =>
      split at hm
      · next r hr => exact absurd (List.cons.inj hr).1 hminus
      · next r hr => exact absurd (List.cons.inj hr).1 hplus
      · rw [hread] at hm
        cases hm <;> rfl
  | negSucc n =>
    have hread : readNat? (ofNat (n + 1)) = some (.ok (n + 1)) := readNat?_ofNat h
    have hdrop : (ofInt (.negSucc n)).dropWhile isMargin = .char '-' :: ofNat (n + 1) := by
      rw [ofInt, List.dropWhile_cons, if_neg (by decide)]
    unfold read
    simp only [hdrop, hread]
    rfl

/-! ## The size of what is read -/

theorem decimalValue?_lt {p : CodePoint} {d : Nat} (h : p.decimalValue? = some d) : d < 10 := by
  obtain ⟨start, hstart, rfl⟩ := Option.map_eq_some_iff.1 h
  have hrange := List.find?_some hstart
  rw [Bool.and_eq_true, decide_eq_true_eq, decide_eq_true_eq] at hrange
  omega

theorem digitRun?_lt {afterDigit : Bool} {t : Text} {ds : List Nat}
    (h : digitRun? afterDigit t = some ds) : ∀ d ∈ ds, d < 10 := by
  induction t generalizing afterDigit ds with
  | nil =>
    rw [digitRun?] at h
    split at h <;> cases h
    exact fun d hd => absurd hd List.not_mem_nil
  | cons p t ih =>
    rw [digitRun?] at h
    split at h
    · split at h
      · exact ih h
      · cases h
    · split at h
      · next d hd =>
        obtain ⟨ds', hds', rfl⟩ := Option.map_eq_some_iff.1 h
        exact List.forall_mem_cons.2 ⟨decimalValue?_lt hd, ih hds'⟩
      · cases h

theorem ofDigits_lt {ds : List Nat} (h : ∀ d ∈ ds, d < 10) : ofDigits ds < 10 ^ ds.length := by
  have hfold (start : Nat) :
      ds.foldl (fun n d => n * 10 + d) start < (start + 1) * 10 ^ ds.length := by
    induction ds generalizing start with
    | nil => simp
    | cons d ds ih =>
      rw [List.forall_mem_cons] at h
      have hstep : start * 10 + d + 1 ≤ (start + 1) * 10 := by omega
      rw [List.foldl_cons, List.length_cons, Nat.pow_succ', ← Nat.mul_assoc]
      exact Nat.lt_of_lt_of_le (ih h.2 _) (Nat.mul_le_mul_right _ hstep)
  have hzero := hfold 0
  rwa [Nat.zero_add, Nat.one_mul] at hzero

theorem readNat?_converts {t : Text} {n : Nat} (h : readNat? t = some (.ok n)) :
    (ofNat n).length ≤ digitLimit := by
  unfold readNat? at h
  split at h
  · cases h
  · next ds hds =>
    split at h
    · cases h
    · next hlength =>
      split at h
      · cases h
        have hlt := ofDigits_lt (digitRun?_lt hds)
        rw [length_ofNat_le_iff (by decide)]
        exact Nat.lt_of_lt_of_le hlt (Nat.pow_le_pow_right (by decide) (Nat.le_of_not_lt hlength))
      · cases h

/-- **An integer that is read can be written.** -/
theorem converts_of_read {t : Text} {n : Int} (h : read t = .ok n) : Converts n := by
  have hsigned {sign : Except Nat Nat → Except Nat Int} (herror : ∀ c, sign (.error c) ≠ .ok n)
      (hok : ∀ m, sign (.ok m) = .ok n → n.natAbs = m) {r : Text}
      (hr : (readNat? r).map sign = some (.ok n)) : Converts n := by
    obtain ⟨r', hr', hmap⟩ := Option.map_eq_some_iff.1 hr
    cases r' with
    | error count => exact absurd hmap (herror count)
    | ok m =>
      rw [Converts, hok m hmap]
      exact readNat?_converts hr'
  unfold read at h
  simp only at h
  split at h
  · next m hm =>
    cases h
    split at hm <;> refine hsigned (fun c hc => ?_) (fun m hm => ?_) hm
    · cases hc
    · cases hm
      exact (Int.natAbs_neg m).trans (Int.natAbs_natCast m)
    · cases hc
    · cases hm
      exact Int.natAbs_natCast m
    · cases hc
    · cases hm
      exact Int.natAbs_natCast m
  · cases h
  · cases h

end LvglForest.Decimal
