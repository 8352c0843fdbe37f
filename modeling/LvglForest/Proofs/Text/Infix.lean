import LvglForest.Text.Basic
import Mathlib.Data.List.Infix

/-!
# Texts in texts

The search for one text in another (`hasInfix_iff`), and when something cannot occur in a text that
is put together: not across a code point that it does not have (`infix_of_infix_append`).
-/

namespace LvglForest.Text

theorem hasInfix_iff {u t : Text} : hasInfix u t = true ↔ u <:+: t := by
  induction t with
  | nil => simp [hasInfix]
  | cons p t ih =>
    rw [hasInfix, Bool.or_eq_true, ih, List.isPrefixOf_iff_prefix, List.infix_cons_iff]

theorem hasInfix_eq_false_iff {u t : Text} : hasInfix u t = false ↔ ¬ u <:+: t := by
  rw [← hasInfix_iff, Bool.not_eq_true]

/-- What starts with a code point that a text does not have occurs only after that text. -/
theorem infix_of_infix_append {p : CodePoint} {u s t : Text} (hp : p ∉ s)
    (h : p :: u <:+: s ++ t) : p :: u <:+: t := by
  induction s with
  | nil => exact h
  | cons q s ih =>
    rw [List.mem_cons, not_or] at hp
    rw [List.cons_append, List.infix_cons_iff] at h
    rcases h with h | h
    · rw [List.cons_prefix_cons] at h
      exact absurd h.1 hp.1
    · exact ih hp.2 h

end LvglForest.Text
