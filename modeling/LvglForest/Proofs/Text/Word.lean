import LvglForest.Text.Word
import LvglForest.Proofs.Text.Blank
import LvglForest.Proofs.Text.Lines
import Mathlib.Data.List.TakeWhile

/-!
# Words among other code points

No blank and no line break belongs to a word (`isBlank_of_isWord`, `isLineBreak_of_isWord`), so a
word is trimmed and stays in its line. A word before something that belongs to no word is read as a
whole (`takeWhile_word`, `dropWhile_word`). A legal name is an identifier, which is a word, or an
identifier and a line feed (`isIdentifierLine_iff`).
-/

namespace LvglForest

/-- A number in one table is not in another one, if each range of the one ends before or starts after
each range of the other. -/
theorem Ranges.contains_eq_false_of_apart {r s : Ranges}
    (h : (r.all fun a => s.all fun b => a.2.blt b.1 || b.2.blt a.1) = true) {n : Nat}
    (hn : r.contains n = true) : s.contains n = false := by
  rw [← Bool.not_eq_true]
  intro hs
  obtain ⟨a, ha, han⟩ := List.any_eq_true.1 hn
  obtain ⟨b, hb, hbn⟩ := List.any_eq_true.1 hs
  have hapart := List.all_eq_true.1 (List.all_eq_true.1 h a ha) b hb
  simp only [Bool.or_eq_true, Nat.blt_eq, Bool.and_eq_true, decide_eq_true_eq] at hapart han hbn
  omega

namespace CodePoint

/-- The blanks and the words have no code point in common. -/
theorem isBlank_of_isWord {p : CodePoint} (h : p.isWord = true) : p.isBlank = false := by
  rw [isWord, Bool.or_eq_true, decide_eq_true_eq] at h
  rcases h with rfl | h
  · rfl
  unfold isAlphanumeric at h
  split at h
  · have hascii : Ranges.contains [(48, 57), (65, 90), (97, 122)] p.value = true := by
      simpa [Ranges.contains, or_assoc] using h
    exact Ranges.contains_eq_false_of_apart (by decide) hascii
  · exact Ranges.contains_eq_false_of_apart (by decide +kernel) h

theorem isBlank_of_isLineBreak {p : CodePoint} (h : p.isLineBreak = true) : p.isBlank = true := by
  simp only [isLineBreak, Bool.or_eq_true, Bool.and_eq_true, decide_eq_true_eq, beq_iff_eq] at h
  simp only [isBlank, blankRanges, Ranges.contains, List.any_cons, List.any_nil, Bool.or_false,
    Bool.or_eq_true, Bool.and_eq_true, decide_eq_true_eq]
  omega

theorem isLineBreak_of_isWord {p : CodePoint} (h : p.isWord = true) : p.isLineBreak = false := by
  rw [← Bool.not_eq_true]
  intro hbreak
  have hblank := isBlank_of_isWord h
  rw [isBlank_of_isLineBreak hbreak] at hblank
  cases hblank

/-- The byte order mark belongs to no word. -/
theorem ne_mark_of_isWord {p : CodePoint} (hp : p.isWord = true) :
    p ≠ .char '\uFEFF' := by
  rintro rfl
  have hword : (CodePoint.char '\uFEFF').isWord = false := by decide +kernel
  rw [hword] at hp
  cases hp

end CodePoint

namespace Text

/-- At least one code point, and all of them belong to words. -/
structure IsWord (t : Text) : Prop where
  ne_nil : t ≠ []
  all : ∀ p ∈ t, p.isWord = true

instance (t : Text) : Decidable t.IsWord :=
  decidable_of_iff (t ≠ [] ∧ ∀ p ∈ t, p.isWord = true)
    ⟨fun h => ⟨h.1, h.2⟩, fun h => ⟨h.ne_nil, h.all⟩⟩

/-- Nothing at the start of a text that a word before it could take. -/
def EndsWord (t : Text) : Prop := ∀ p, t.head? = some p → p.isWord = false

theorem endsWord_cons {p : CodePoint} (h : p.isWord = false) (t : Text) : EndsWord (p :: t) := by
  intro q hq
  cases hq
  exact h

theorem takeWhile_word {w r : Text} (hw : ∀ p ∈ w, p.isWord = true) (hr : EndsWord r) :
    (w ++ r).takeWhile CodePoint.isWord = w := by
  have hnil : r.takeWhile CodePoint.isWord = [] := by
    cases r with
    | nil => rfl
    | cons p r => rw [List.takeWhile_cons, hr p rfl]; rfl
  rw [List.takeWhile_append_of_pos hw, hnil, List.append_nil]

theorem dropWhile_word {w r : Text} (hw : ∀ p ∈ w, p.isWord = true) (hr : EndsWord r) :
    (w ++ r).dropWhile CodePoint.isWord = r := by
  rw [List.dropWhile_append_of_pos hw]
  cases r with
  | nil => rfl
  | cons p r => rw [List.dropWhile_cons, hr p rfl]; rfl

theorem startsIdentifier_isWord {p : CodePoint} (h : p.startsIdentifier = true) :
    p.isWord = true := by
  rw [CodePoint.startsIdentifier, Bool.or_eq_true] at h
  rw [CodePoint.isWord, Bool.or_eq_true]
  rcases h with h | h
  · exact .inl h
  right
  cases p with
  | surrogate n => cases h
  | char c =>
    simp only [CodePoint.isAsciiLetter, Bool.or_eq_true, Bool.and_eq_true, decide_eq_true_eq,
      Char.le_def, UInt32.le_iff_toNat_le] at h
    have hvalue : 97 ≤ (CodePoint.char c).value ∧ (CodePoint.char c).value ≤ 122 ∨
        65 ≤ (CodePoint.char c).value ∧ (CodePoint.char c).value ≤ 90 := h
    rw [CodePoint.isAlphanumeric, if_pos (by omega)]
    simp only [Bool.or_eq_true, Bool.and_eq_true, decide_eq_true_eq]
    omega

theorem isWord_of_isIdentifier {t : Text} (h : t.isIdentifier = true) : t.IsWord := by
  cases t with
  | nil => cases h
  | cons p t =>
    rw [isIdentifier, Bool.and_eq_true, List.all_eq_true] at h
    refine ⟨List.cons_ne_nil p t, ?_⟩
    rw [List.forall_mem_cons]
    exact ⟨startsIdentifier_isWord h.1, h.2⟩

namespace IsWord

variable {t : Text} (h : t.IsWord)
include h

theorem isTrimmed : t.IsTrimmed := .of_all fun p hp => CodePoint.isBlank_of_isWord (h.all p hp)

theorem inLine : t.InLine := fun p hp => CodePoint.isLineBreak_of_isWord (h.all p hp)

/-- A code point that belongs to no word is not in a word. -/
theorem not_mem {p : CodePoint} (hp : p.isWord = false) : p ∉ t := by
  intro hmem
  rw [h.all p hmem] at hp
  cases hp

theorem append {u : Text} (hu : u.IsWord) : (t ++ u).IsWord where
  ne_nil := by simp [h.ne_nil]
  all p hp := (List.mem_append.1 hp).elim (h.all p) (hu.all p)

omit h in
/-- A literal is a word if its characters belong to words. -/
theorem ofList {cs : List Char}
    (hcs : cs ≠ [] ∧ cs.all (fun c => (CodePoint.char c).isWord) = true) :
    IsWord (ofString (String.ofList cs)) := by
  rw [ofString_ofList]
  exact ⟨by simpa using hcs.1, by simpa using hcs.2⟩

end IsWord

/-! ## Identifiers -/

/-- A word is an identifier exactly if it starts like one. -/
theorem isIdentifier_iff_head? {t : Text} (h : t.IsWord) :
    t.isIdentifier = true ↔ ∀ p ∈ t.head?, p.startsIdentifier = true := by
  obtain ⟨p, t, rfl⟩ := List.exists_cons_of_ne_nil h.ne_nil
  have hall : t.all CodePoint.isWord = true :=
    List.all_eq_true.2 fun q hq => h.all q (List.mem_cons_of_mem p hq)
  simp [isIdentifier, hall]

/-- What follows a word does not count to whether it is an identifier. -/
theorem isIdentifier_append {s t : Text} (hs : s.IsWord) (ht : ∀ p ∈ t, p.isWord = true) :
    (s ++ t).isIdentifier = s.isIdentifier := by
  obtain ⟨p, s, rfl⟩ := List.exists_cons_of_ne_nil hs.ne_nil
  have hall : t.all CodePoint.isWord = true := List.all_eq_true.2 ht
  simp [isIdentifier, hall]

/-- A word ends in no line feed, so it must be an identifier to be a legal name. -/
theorem isIdentifierLine_of_isWord {t : Text} (h : t.IsWord) :
    t.isIdentifierLine = t.isIdentifier := by
  have hlast : t.getLast? ≠ some (.char '\n') :=
    fun hlast => h.not_mem rfl (List.mem_of_getLast? hlast)
  rw [isIdentifierLine, dropFinalNewline, if_neg hlast]

/-- **A legal name** is an identifier, or an identifier and a line feed. -/
theorem isIdentifierLine_iff {t : Text} : t.isIdentifierLine = true ↔
    ∃ i : Text, i.isIdentifier = true ∧ (t = i ∨ t = i ++ [.char '\n']) := by
  constructor
  · intro h
    unfold isIdentifierLine dropFinalNewline at h
    split at h
    · next hlast => exact ⟨_, h, .inr (List.dropLast_append_getLast? _ hlast).symm⟩
    · exact ⟨t, h, .inl rfl⟩
  · rintro ⟨i, hi, rfl | rfl⟩
    · rw [isIdentifierLine_of_isWord (isWord_of_isIdentifier hi), hi]
    · rw [isIdentifierLine, dropFinalNewline, if_pos List.getLast?_concat, List.dropLast_concat, hi]

section Legal

variable {t : Text} (h : t.isIdentifierLine = true)
include h

/-- An identifier and at most one line feed hold nothing else. -/
theorem not_mem_of_isIdentifierLine {p : CodePoint} (hp : p.isWord = false)
    (hline : p ≠ .char '\n') : p ∉ t := by
  obtain ⟨i, hi, rfl | rfl⟩ := isIdentifierLine_iff.1 h
  · exact (isWord_of_isIdentifier hi).not_mem hp
  · rw [List.mem_append, List.mem_singleton, not_or]
    exact ⟨(isWord_of_isIdentifier hi).not_mem hp, hline⟩

/-- A legal name is an identifier unless it ends in a line feed. -/
theorem isIdentifier_iff_getLast? : t.isIdentifier = true ↔ t.getLast? ≠ some (.char '\n') := by
  obtain ⟨i, hi, rfl | rfl⟩ := isIdentifierLine_iff.1 h
  · exact iff_of_true hi fun hlast =>
      (isWord_of_isIdentifier hi).not_mem rfl (List.mem_of_getLast? hlast)
  · refine iff_of_false (fun hline => ?_) fun hlast => hlast List.getLast?_concat
    exact (isWord_of_isIdentifier hline).not_mem rfl List.mem_concat_self

/-- A legal name is an identifier exactly if it is in one line. -/
theorem isIdentifier_iff_inLine : t.isIdentifier = true ↔ t.InLine := by
  refine ⟨fun ht => (isWord_of_isIdentifier ht).inLine, fun hline => ?_⟩
  rw [isIdentifier_iff_getLast? h]
  exact fun hlast => hline.not_mem rfl (List.mem_of_getLast? hlast)

/-- A legal name is an identifier exactly if there is no blank in it. -/
theorem isIdentifier_iff_isBlank : t.isIdentifier = true ↔ ∀ p ∈ t, p.isBlank = false := by
  constructor
  · exact fun ht p hp => CodePoint.isBlank_of_isWord ((isWord_of_isIdentifier ht).all p hp)
  · intro hblank
    rw [isIdentifier_iff_getLast? h]
    exact fun hlast => absurd (hblank _ (List.mem_of_getLast? hlast)) (by decide)

end Legal

end Text

end LvglForest
