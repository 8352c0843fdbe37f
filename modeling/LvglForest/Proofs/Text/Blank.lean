import LvglForest.Text.Blank
import Mathlib.Data.List.Basic
import Mathlib.Data.List.TakeWhile

/-!
# Texts without blanks around them

Taking the blanks off a text changes nothing but the blanks: a text that neither starts nor ends
with one stays as it is (`strip_eq_self`), and blanks before or after a text do not count
(`strip_blank_append`, `strip_append_blank`).
-/

namespace LvglForest.Text

/-- No blank at either end of a text. -/
structure IsTrimmed (t : Text) : Prop where
  head : ∀ p, t.head? = some p → p.isBlank = false
  last : ∀ p, t.getLast? = some p → p.isBlank = false

theorem stripStart_of_head {t : Text} (h : ∀ p, t.head? = some p → p.isBlank = false) :
    t.stripStart = t := by
  cases t with
  | nil => rfl
  | cons p t => simp [stripStart, h p rfl]

theorem stripEnd_of_last {t : Text} (h : ∀ p, t.getLast? = some p → p.isBlank = false) :
    t.stripEnd = t := by
  have hr : stripStart t.reverse = t.reverse :=
    stripStart_of_head fun p hp => h p (by rwa [List.head?_reverse] at hp)
  unfold stripStart at hr
  rw [stripEnd, hr, List.reverse_reverse]

theorem strip_eq_self {t : Text} (h : t.IsTrimmed) : t.strip = t := by
  rw [strip, stripStart_of_head h.head, stripEnd_of_last h.last]

theorem isBlank_of_head?_stripStart {t : Text} {p : CodePoint} (h : t.stripStart.head? = some p) :
    p.isBlank = false := by
  have hhead := List.head?_dropWhile_not CodePoint.isBlank t
  rw [stripStart] at h
  rwa [h] at hhead

theorem strip_blank_append {u : Text} (h : ∀ p ∈ u, p.isBlank = true) (t : Text) :
    (u ++ t).strip = t.strip := by
  rw [strip, strip, stripStart, stripStart, List.dropWhile_append_of_pos h]

/-- A code point that is no blank keeps what is before it. -/
theorem stripEnd_append_cons {p : CodePoint} (hp : p.isBlank = false) (u t : Text) :
    stripEnd (u ++ p :: t) = u ++ p :: stripEnd t := by
  rw [stripEnd, stripEnd, List.reverse_append, List.reverse_cons, List.append_assoc,
    List.dropWhile_append]
  split
  · next h => simp [List.isEmpty_iff.1 h, hp]
  · simp

theorem stripEnd_cons {p : CodePoint} (hp : p.isBlank = false) (t : Text) :
    stripEnd (p :: t) = p :: stripEnd t := stripEnd_append_cons hp [] t

theorem stripEnd_append {t : Text} (ht : ∀ p, t.getLast? = some p → p.isBlank = false)
    (hne : t ≠ []) (u : Text) : stripEnd (u ++ t) = u ++ t := by
  refine stripEnd_of_last fun p hp => ht p ?_
  rwa [List.getLast?_append_of_ne_nil u hne] at hp

theorem stripEnd_append_blank {w : Text} (hw : ∀ p ∈ w, p.isBlank = true) (t : Text) :
    stripEnd (t ++ w) = stripEnd t := by
  rw [stripEnd, stripEnd, List.reverse_append, List.dropWhile_append_of_pos]
  exact fun p hp => hw p (List.mem_reverse.1 hp)

theorem exists_eq_stripEnd_append (t : Text) :
    ∃ w : Text, t = stripEnd t ++ w ∧ ∀ p ∈ w, p.isBlank = true := by
  refine ⟨(t.reverse.takeWhile CodePoint.isBlank).reverse, ?_, fun p hp => ?_⟩
  · rw [stripEnd, ← List.reverse_append, List.takeWhile_append_dropWhile, List.reverse_reverse]
  · exact List.mem_takeWhile_imp (List.mem_reverse.1 hp)

/-- No blank is left at either end. -/
theorem isTrimmed_strip (t : Text) : t.strip.IsTrimmed where
  head p hp := by
    obtain ⟨w, hw, -⟩ := exists_eq_stripEnd_append t.stripStart
    refine isBlank_of_head?_stripStart (t := t) ?_
    rw [hw, List.head?_append]
    exact congrArg (Option.or · w.head?) hp
  last p hp := by
    rw [strip, stripEnd, List.getLast?_reverse] at hp
    exact isBlank_of_head?_stripStart (t := t.stripStart.reverse) hp

theorem strip_append_blank {w : Text} (hw : ∀ p ∈ w, p.isBlank = true) (t : Text) :
    (t ++ w).strip = t.strip := by
  rw [strip, strip, stripStart, stripStart, List.dropWhile_append]
  split
  · next h =>
    rw [List.isEmpty_iff.1 h, List.dropWhile_eq_nil_iff.2 hw]
  · exact stripEnd_append_blank hw _

/-- What stands behind a prefix and blanks is in the text. -/
theorem mem_of_isPrefixOf? {f t r s : Text} {p : CodePoint} (hr : f.isPrefixOf? t = some r)
    (hs : r.stripStart = p :: s) : p ∈ t := by
  have hsuffix : stripStart r <:+ t :=
    (List.dropWhile_suffix _).trans ⟨_, List.isPrefixOf?_eq_some_iff_append_eq.1 hr⟩
  rw [hs] at hsuffix
  exact hsuffix.subset List.mem_cons_self

namespace IsTrimmed

theorem nil : IsTrimmed [] := ⟨by simp, by simp⟩

/-- A text between two code points that are no blanks. -/
theorem wrap {p q : CodePoint} (hp : p.isBlank = false) (hq : q.isBlank = false) (t : Text) :
    IsTrimmed (p :: t ++ [q]) := by
  refine ⟨fun x hx => ?_, fun x hx => ?_⟩
  · cases hx
    exact hp
  · rw [List.getLast?_concat] at hx
    cases hx
    exact hq

theorem of_ends {p q : CodePoint} {t : Text} (hhead : t.head? = some p)
    (hlast : t.getLast? = some q) (hp : p.isBlank = false) (hq : q.isBlank = false) :
    IsTrimmed t := by
  refine ⟨fun x hx => ?_, fun x hx => ?_⟩
  · rw [hhead] at hx
    cases hx
    exact hp
  · rw [hlast] at hx
    cases hx
    exact hq

theorem of_all {t : Text} (h : ∀ p ∈ t, p.isBlank = false) : IsTrimmed t :=
  ⟨fun p hp => h p (List.mem_of_head? hp), fun p hp => h p (List.mem_of_getLast? hp)⟩

end IsTrimmed

end LvglForest.Text
