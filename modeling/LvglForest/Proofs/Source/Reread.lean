import LvglForest.Proofs.Source.Operand

/-!
# Tokens are normalized once

Any text may stand for a number, a size or a colour. What is kept of it has one spelling, and this
spelling is read as the same thing again: an integer is spelled in ASCII digits without leading
zeros, and whatever is no integer, no percentage and no wrapped colour is kept as it is, but for the
blanks around it (`Operand.exists_spelling`, `Size.exists_spelling`, `Color.ofSource_spelling`).
-/

namespace LvglForest

theorem CodePoint.isWord_of_isHexDigit {p : CodePoint} (h : p.isHexDigit = true) :
    p.isWord = true := by
  cases p with
  | surrogate n => cases h
  | char c =>
    simp only [isHexDigit, Bool.or_eq_true, Bool.and_eq_true, decide_eq_true_eq, Char.le_def,
      UInt32.le_iff_toNat_le] at h
    have hvalue : 48 ≤ (CodePoint.char c).value ∧ (CodePoint.char c).value ≤ 57 ∨
        97 ≤ (CodePoint.char c).value ∧ (CodePoint.char c).value ≤ 102 ∨
        65 ≤ (CodePoint.char c).value ∧ (CodePoint.char c).value ≤ 70 := by
      rw [← or_assoc]
      exact h
    rw [isWord, isAlphanumeric, if_pos (by omega)]
    simp only [Bool.or_eq_true, Bool.and_eq_true, decide_eq_true_eq]
    omega

theorem Text.strip_strip (t : Text) : t.strip.strip = t.strip := strip_eq_self (isTrimmed_strip t)

/-! ## Numbers -/

namespace Operand

theorem ofSource_strip (t : Text) : ofSource t.strip = ofSource t := by
  rw [ofSource, Text.strip_strip, ofSource]

/-- **A number or an expression** is spelled and read as itself again. -/
theorem exists_spelling (t : Text) :
    ∃ u, (ofSource t).toValue.display = .ok u ∧ ofSource u = ofSource t := by
  cases hread : Decimal.read t.strip with
  | ok n =>
    have hn := Decimal.converts_of_read hread
    have hsource : ofSource t = .integer n := by rw [ofSource, hread]
    rw [hsource]
    exact ⟨Decimal.ofInt n, Decimal.write_of_converts hn, ofSource_ofInt hn⟩
  | error f =>
    have hsource : ofSource t = .token t.strip := by rw [ofSource, hread]
    refine ⟨t.strip, ?_, ofSource_strip t⟩
    rw [hsource]
    rfl

end Operand

/-! ## Sizes -/

namespace Size

theorem ofSource_strip (t : Text) : ofSource t.strip = ofSource t := by
  rw [ofSource, Text.strip_strip, ofSource]

/-- What holds of a number without parentheses holds of it as a size. -/
theorem ofSource_of_not_mem {t : Text} (hne : t.strip ≠ []) (hparen : .char '(' ∉ t.strip) :
    ofSource t = .ok (.plain (Operand.ofSource t).toValue) := by
  have hempty : t.strip.isEmpty = false := List.isEmpty_eq_false_iff.2 hne
  rw [ofSource]
  simp only [hempty, percentArgument?_of_not_mem hparen, Operand.ofSource_strip, Bool.false_eq_true,
    if_false]

/-- A size that is no percentage is spelled and read as itself again. -/
theorem exists_spelling_plain {t : Text} (hne : t.strip ≠ [])
    (hpercent : percentArgument? t.strip = none) :
    ∃ u, (Size.plain (Operand.ofSource t).toValue).toSource = .ok u ∧
      ofSource u = .ok (.plain (Operand.ofSource t).toValue) := by
  cases hread : Decimal.read t.strip with
  | ok n =>
    have hn := Decimal.converts_of_read hread
    have hsource : Operand.ofSource t = .integer n := by rw [Operand.ofSource, hread]
    have hstated : IsStated (.pixels n) := ⟨hn, rfl⟩
    obtain ⟨-, u, hu, -, hreread⟩ := hstated.exists_token
    rw [hsource]
    exact ⟨u, hu, hreread⟩
  | error f =>
    have hsource : Operand.ofSource t = .token t.strip := by rw [Operand.ofSource, hread]
    have hempty : t.strip.isEmpty = false := List.isEmpty_eq_false_iff.2 hne
    refine ⟨t.strip, ?_, ?_⟩
    · rw [hsource]
      rfl
    · rw [ofSource_strip, ofSource]
      simp only [hempty, hpercent, Operand.ofSource_strip, Bool.false_eq_true, if_false]

/-- **A size** is spelled and read as itself again. -/
theorem exists_spelling {t : Text} {s : Size} (h : ofSource t = .ok s) :
    ∃ u, s.toSource = .ok u ∧ ofSource u = .ok s := by
  unfold ofSource at h
  simp only at h
  split at h
  · cases h
    exact ⟨_, rfl, rfl⟩
  · next hne =>
    split at h
    · next digits _ =>
      obtain ⟨n, hread, rfl⟩ := exists_of_map_eq_ok h
      have hstated : IsStated (.percent (.integer n)) := Decimal.converts_of_read hread
      obtain ⟨-, u, hu, -, hreread⟩ := hstated.exists_token
      exact ⟨u, hu, hreread⟩
    · next hpercent =>
      cases h
      rw [Operand.ofSource_strip]
      refine exists_spelling_plain ?_ hpercent
      rwa [Bool.not_eq_true, List.isEmpty_eq_false_iff] at hne

end Size

/-! ## Colours -/

namespace Color

theorem isWord_of_isHex {t : Text} (h : isHex t = true) : t.IsWord := by
  unfold isHex at h
  split at h
  · next digits =>
    rw [Bool.and_eq_true, List.all_eq_true] at h
    refine ⟨List.cons_ne_nil _ _, ?_⟩
    rw [List.forall_mem_cons, List.forall_mem_cons]
    exact ⟨by decide, by decide, fun p hp => CodePoint.isWord_of_isHexDigit (h.2 p hp)⟩
  · cases h

/-- What is found in a wrapped colour is a hexadecimal number. -/
theorem isHex_of_hexArgument? {t u : Text} (h : hexArgument? t = some u) : isHex u = true := by
  unfold hexArgument? at h
  split at h
  · cases h
  · split at h
    · split at h
      · next r _ =>
        simp only at h
        split at h
        · cases h
        · next hne =>
          split at h
          · cases h
            have hall : (r.takeWhile CodePoint.isHexDigit).all CodePoint.isHexDigit = true :=
              List.all_eq_true.2 fun p hp => List.mem_takeWhile_imp hp
            rw [isHex, hall, Bool.eq_false_iff.2 hne]
            rfl
          · cases h
      · cases h
    · cases h

theorem dropFinalNewline_of_isTrimmed {t : Text} (h : t.IsTrimmed) : t.dropFinalNewline = t := by
  rw [Text.dropFinalNewline, if_neg]
  intro hlast
  cases h.last _ hlast

/-- **A colour** is spelled and read as itself again. -/
theorem ofSource_spelling (t : Text) : ofSource (toSource (ofSource t)) = ofSource t := by
  cases hwrapped : hexArgument? t.strip with
  | some u =>
    have hsource : ofSource t = u := by rw [ofSource, hwrapped, Option.getD_some]
    rw [hsource]
    exact (ofSource_toSource (isWord_of_isHex (isHex_of_hexArgument? hwrapped))).2
  | none =>
    have hsource : ofSource t = t.strip := by rw [ofSource, hwrapped, Option.getD_none]
    rw [hsource]
    by_cases hhex : isHex t.strip = true
    · exact (ofSource_toSource (isWord_of_isHex hhex)).2
    · rw [toSource, dropFinalNewline_of_isTrimmed (Text.isTrimmed_strip t), if_neg hhex, ofSource,
        Text.strip_strip, hwrapped, Option.getD_none]

end Color

end LvglForest
