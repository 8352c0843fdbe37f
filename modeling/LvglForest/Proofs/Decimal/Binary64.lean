import LvglForest.Decimal.Binary64
import LvglForest.Proofs.Decimal

/-!
# Floats without their fractions

A float that a decimal is read as has an integer part with few digits: decimals from `10^310` on are
infinite, and rounding adds no more than one unit in the last place
(`Binary64.converts_ofDecimal`).
-/

namespace LvglForest.Binary64

/-- The integer part, if there is one, does not have too many digits. -/
def Converts (x : Binary64) : Prop := ∀ n ∈ x.truncate?, Decimal.Converts n

/-- The integer part of a mantissa with an exponent. -/
def whole (m : Nat) (e : Int) : Nat :=
  if 0 ≤ e then m * twoTo e.toNat else m / twoTo (-e).toNat

theorem converts_finite {negative : Bool} {m : Nat} {e : Int}
    (h : whole m e < 10 ^ Decimal.digitLimit) : (finite negative m e).Converts := by
  rintro n ⟨⟩
  refine Decimal.converts_of_lt ?_
  split
  · rwa [Int.natAbs_neg, Int.natAbs_natCast]
  · rwa [Int.natAbs_natCast]

theorem converts_zero (negative : Bool) : (zero negative).Converts := by
  refine converts_finite ?_
  rw [whole, if_neg (by decide), Nat.zero_div]
  exact Nat.pow_pos (by decide)

theorem converts_infinity (negative : Bool) : (infinity negative).Converts := fun _ h => nomatch h

theorem converts_nan : nan.Converts := fun _ h => nomatch h

theorem twoTo_pos (n : Nat) : 0 < twoTo n := Nat.pow_pos (by decide)

/-- A power of two is less than a greater power of ten. -/
theorem twoTo_lt {m n : Nat} (h : m < n) : twoTo m < 10 ^ n :=
  Nat.lt_of_le_of_lt (Nat.pow_le_pow_left (by decide) m) (Nat.pow_lt_pow_right (by decide) h)

/-! ## Rounding -/

theorem roundDiv_le (num den : Nat) : roundDiv num den ≤ num / den + 1 := by
  unfold roundDiv
  simp only
  split <;> omega

/-- Rounding adds no more than one unit in the last place to a bound. -/
theorem whole_roundDiv_le {num den bound : Nat} (h : num < den * bound) (e : Int) :
    whole (roundDiv (scaled num den e).1 (scaled num den e).2) e ≤ bound + twoTo e.toNat := by
  have hround := roundDiv_le (scaled num den e).1 (scaled num den e).2
  unfold whole
  split
  · next he =>
    rw [scaled, if_pos he] at hround ⊢
    calc roundDiv num (den * twoTo e.toNat) * twoTo e.toNat
      _ ≤ (num / (den * twoTo e.toNat) + 1) * twoTo e.toNat := Nat.mul_le_mul_right _ hround
      _ = num / den / twoTo e.toNat * twoTo e.toNat + twoTo e.toNat := by
        rw [Nat.add_mul, Nat.one_mul, Nat.div_div_eq_div_mul]
      _ ≤ num / den + twoTo e.toNat := Nat.add_le_add_right (Nat.div_mul_le_self _ _) _
      _ ≤ bound + twoTo e.toNat :=
        Nat.add_le_add_right (Nat.le_of_lt (Nat.div_lt_of_lt_mul h)) _
  · next he =>
    rw [scaled, if_neg he] at hround ⊢
    have hscaled : num * twoTo (-e).toNat / den ≤ bound * twoTo (-e).toNat := by
      refine Nat.div_le_of_le_mul ?_
      rw [← Nat.mul_assoc]
      exact Nat.mul_le_mul_right _ (Nat.le_of_lt h)
    calc roundDiv (num * twoTo (-e).toNat) den / twoTo (-e).toNat
      _ ≤ (bound * twoTo (-e).toNat + twoTo (-e).toNat) / twoTo (-e).toNat :=
        Nat.div_le_div_right (hround.trans (Nat.add_le_add hscaled (twoTo_pos _)))
      _ = bound + 1 := by
        rw [← Nat.succ_mul, Nat.mul_div_cancel _ (twoTo_pos _)]
      _ ≤ bound + twoTo e.toNat := Nat.add_le_add_left (twoTo_pos _) _

/-- Where rounding carries, the mantissa is the least one. -/
theorem whole_twoTo_lt {e : Int} (he : ¬ maxExponent < e) :
    whole (twoTo 52) e < 10 ^ Decimal.digitLimit := by
  have hexponent : 52 + e.toNat < Decimal.digitLimit := by
    unfold maxExponent at he
    unfold Decimal.digitLimit
    omega
  refine Nat.lt_of_le_of_lt ?_ (twoTo_lt hexponent)
  have hsum : twoTo (52 + e.toNat) = twoTo 52 * twoTo e.toNat := Nat.pow_add ..
  rw [whole, hsum]
  split
  · exact Nat.le_refl _
  · exact (Nat.div_le_self _ _).trans (Nat.le_mul_of_pos_right _ (twoTo_pos _))

theorem add_lt_pow {a b m n : Nat} (ha : a ≤ 10 ^ m) (hb : b < 10 ^ m) (h : m < n) :
    a + b < 10 ^ n := by
  have hnext : 10 ^ (m + 1) ≤ 10 ^ n := Nat.pow_le_pow_right (by decide) h
  rw [Nat.pow_succ] at hnext
  omega

/-- No exponent is so great that the integer part has too many digits. -/
theorem add_twoTo_lt {n : Nat} {e : Int} (hn : n ≤ 310) (he : ¬ maxExponent < e) :
    10 ^ n + twoTo e.toNat < 10 ^ Decimal.digitLimit := by
  have hexponent : e.toNat < 972 := by
    unfold maxExponent at he
    omega
  exact add_lt_pow (Nat.pow_le_pow_right (by decide) (hn.trans (by decide))) (twoTo_lt hexponent)
    (by decide)

theorem converts_ofRatio {num den n : Nat} (negative : Bool) (hn : n ≤ 310)
    (h : num < den * 10 ^ n) : (ofRatio negative num den).Converts := by
  unfold ofRatio
  simp only
  generalize max _ minExponent = e
  by_cases hcarry : roundDiv (scaled num den e).1 (scaled num den e).2 = twoTo 53
  · simp only [if_pos hcarry]
    split
    · exact converts_infinity negative
    · next he => exact converts_finite (whole_twoTo_lt he)
  · simp only [if_neg hcarry]
    split
    · exact converts_infinity negative
    · next he =>
      exact converts_finite (Nat.lt_of_le_of_lt (whole_roundDiv_le h e) (add_twoTo_lt hn he))

/-- **A decimal is read as a float** whose integer part does not have too many digits. -/
theorem converts_ofDecimal (negative : Bool) (digits : Nat) (exponent : Int) :
    (ofDecimal negative digits exponent).Converts := by
  have hlength := List.length_pos_iff.2 (Decimal.isWord_ofNat digits).ne_nil
  have hdigits := (Decimal.length_ofNat_le_iff hlength).1 (Nat.le_refl _)
  unfold ofDecimal
  generalize (Decimal.ofNat digits).length = length at hlength hdigits
  simp only
  split
  · exact converts_zero negative
  · next hsmall =>
    split
    · exact converts_infinity negative
    · next hgreat =>
      split
      · next hexponent =>
        refine converts_ofRatio (n := length + exponent.toNat) negative (by omega) ?_
        rw [Nat.one_mul, Nat.pow_add]
        exact Nat.mul_lt_mul_of_pos_right hdigits (Nat.pow_pos (by decide))
      · next hexponent =>
        refine converts_ofRatio (n := length - (-exponent).toNat) negative (by omega) ?_
        calc digits
          _ < 10 ^ length := hdigits
          _ ≤ 10 ^ ((-exponent).toNat + (length - (-exponent).toNat)) :=
            Nat.pow_le_pow_right (by decide) (by omega)
          _ = tenTo (-exponent).toNat * 10 ^ (length - (-exponent).toNat) := Nat.pow_add ..

end LvglForest.Binary64
