import LvglForest.Proofs.Source.Balanced
import LvglForest.Proofs.Text.Word

/-!
# Argument lists taken apart

What may stand in an argument of a written call is given by a grammar (`Nested`): code points without
structure, literals in double quotes, and parentheses around such text. Such text is balanced, so the
search for the closing parenthesis passes it at any nesting depth (`upToClosing_nested`), and a call
that is written from arguments is read as a call with the same arguments (`capture_group`,
`split_join`).
-/

namespace LvglForest

namespace Arguments

/-! ## What stands in an argument -/

/-- A code point that means nothing between arguments: no quote and no bracket. -/
def isPlain (p : CodePoint) : Bool := !(Lexical.isQuote p || isOpening p || isClosing p)

theorem isPlain_eq_true_iff {p : CodePoint} : isPlain p = true ↔
    Lexical.isQuote p = false ∧ ∀ pair ∈ brackets, p ≠ pair.1 ∧ p ≠ pair.2 := by
  simp only [isPlain, isOpening, isClosing, brackets, List.forall_mem_cons, List.not_mem_nil,
    false_implies, implies_true, Bool.not_eq_true', Bool.or_eq_false_iff, decide_eq_false_iff_not]
  tauto

/-- Text in which literals and parentheses are closed. The flag allows commas outside of them. -/
inductive Nested : Bool → Text → Prop
  | nil {comma : Bool} : Nested comma []
  | plain {comma : Bool} {p : CodePoint} {t : Text} (hp : isPlain p = true)
      (hcomma : comma = true ∨ p ≠ .char ',') (ht : Nested comma t) : Nested comma (p :: t)
  | literal {comma : Bool} {b t : Text} (hb : Literal.IsBody (.char '"') b)
      (ht : Nested comma t) : Nested comma (.char '"' :: b ++ .char '"' :: t)
  | group {comma : Bool} {u t : Text} (hu : Nested true u) (ht : Nested comma t) :
      Nested comma (.char '(' :: u ++ .char ')' :: t)

theorem isPlain_of_isWord {p : CodePoint} (h : p.isWord = true) : isPlain p = true := by
  rw [← Bool.not_eq_false]
  intro hp
  simp only [isPlain, Bool.not_eq_false', Bool.or_eq_true, Lexical.isQuote, isOpening, isClosing,
    decide_eq_true_eq] at hp
  rcases hp with ((rfl | rfl) | (rfl | rfl) | rfl) | (rfl | rfl) | rfl <;> cases h

namespace Nested

variable {comma : Bool}

theorem append {s t : Text} (hs : Nested comma s) (ht : Nested comma t) :
    Nested comma (s ++ t) := by
  induction hs with
  | nil => exact ht
  | plain hp hcomma _ ih => exact .plain hp hcomma (ih ht)
  | @literal _ b s hb _ ih =>
    have h := Nested.literal hb (ih ht)
    simpa only [List.cons_append, List.append_assoc] using h
  | @group _ u s hu _ _ ih =>
    have h := Nested.group hu (ih ht)
    simpa only [List.cons_append, List.append_assoc] using h

theorem of_plain {t : Text} (h : ∀ p ∈ t, isPlain p = true ∧ p ≠ .char ',') :
    Nested comma t := by
  induction t with
  | nil => exact .nil
  | cons p t ih =>
    rw [List.forall_mem_cons] at h
    exact .plain h.1.1 (.inr h.1.2) (ih h.2)

theorem of_isWord {t : Text} (h : t.IsWord) : Nested comma t := by
  refine of_plain fun p hp => ⟨isPlain_of_isWord (h.all p hp), ?_⟩
  rintro rfl
  exact h.not_mem rfl hp

theorem of_literal {b : Text} (hb : Literal.IsBody (.char '"') b) :
    Nested comma (.char '"' :: b ++ [.char '"']) :=
  .literal hb .nil

/-- Where commas are not allowed they may be allowed as well. -/
theorem allow {t : Text} (h : Nested comma t) : Nested true t := by
  induction h with
  | nil => exact .nil
  | plain hp _ _ ih => exact .plain hp (.inl rfl) ih
  | literal hb _ ih => exact .literal hb ih
  | group hu _ _ ih => exact .group hu ih

/-- Arguments put together with commas. -/
theorem join {args : List Text} (h : ∀ a ∈ args, Nested false a) :
    Nested true (Text.join ", " args) := by
  induction args with
  | nil => exact .nil
  | cons a args ih =>
    rw [List.forall_mem_cons] at h
    cases args with
    | nil => exact h.1.allow
    | cons b args =>
      have hcomma : Nested true (", " : Text) := .plain rfl (.inl rfl) (.plain rfl (.inl rfl) .nil)
      exact (h.1.allow.append hcomma).append (ih h.2)

/-- No bracket of any kind stands outside of parentheses that are closed. -/
theorem balanced {t : Text} (h : Nested comma t) : Balanced brackets comma t := by
  induction h with
  | nil => exact .nil
  | plain hp hcomma _ ih =>
    obtain ⟨hquote, hpairs⟩ := isPlain_eq_true_iff.1 hp
    exact .plain hquote hpairs hcomma ih
  | literal hb _ ih => exact .literal rfl hb ih
  | group _ _ ihu iht => exact .group List.mem_cons_self ihu iht

end Nested

/-! ## The closing parenthesis -/

/-- Within a literal no parenthesis is closed. -/
theorem upToClosing_unclosed {quote : CodePoint} {b x : Text} (hb : Literal.IsBody quote b)
    (hx : x <+: b) (depth : Int) : upToClosing (.literal quote) depth x = none := by
  have hin : Lexical.literal quote ≠ .code := by simp
  induction hb generalizing x with
  | nil =>
    rw [List.prefix_nil.1 hx]
    rfl
  | @plain p t hne hescape _ ih =>
    rcases List.prefix_cons_iff.1 hx with rfl | ⟨y, rfl, hy⟩
    · rfl
    · rw [upToClosing_in hin, Lexical.next, if_neg hescape, if_neg hne, ih hy, Option.map_none]
  | @escape p t _ ih =>
    rcases List.prefix_cons_iff.1 hx with rfl | ⟨y, rfl, hy⟩
    · rfl
    · rw [upToClosing_in hin, Lexical.next, if_pos rfl]
      rcases List.prefix_cons_iff.1 hy with rfl | ⟨z, rfl, hz⟩
      · rfl
      · rw [upToClosing_in (by simp), Lexical.next, ih hz, Option.map_none, Option.map_none]

/-- Closed text is passed at any depth that is not zero. -/
theorem upToClosing_nested {comma : Bool} {u : Text} (hu : Nested comma u) {depth : Int}
    (hdepth : 1 ≤ depth) (r : Text) :
    upToClosing .code depth (u ++ r) = (upToClosing .code depth r).map (u ++ ·) :=
  upToClosing_balanced hu.balanced.inParentheses hdepth r

/-- **What stands between the parentheses of a call** is captured as it is. -/
theorem capture_group {comma : Bool} {u : Text} (hu : Nested comma u) (r : Text) :
    capture (.char '(' :: u ++ .char ')' :: r) = some u :=
  capture_eq_some_iff.2 ⟨r, rfl, hu.balanced.inParentheses⟩

/-! ## Arguments -/

/-- What an argument of a call is made of: closed text without commas, trimmed and not empty. -/
structure IsArgument (t : Text) : Prop where
  ne_nil : t ≠ []
  trimmed : t.IsTrimmed
  nested : Nested false t

theorem IsArgument.of_isWord {t : Text} (h : t.IsWord) : IsArgument t :=
  ⟨h.ne_nil, h.isTrimmed, .of_isWord h⟩

theorem IsArgument.literal {b : Text} (hb : Literal.IsBody (.char '"') b) :
    IsArgument (.char '"' :: b ++ [.char '"']) :=
  ⟨List.cons_ne_nil _ _, .wrap rfl rfl b, .of_literal hb⟩

/-- **Arguments put together with commas** are taken apart into the same arguments. -/
theorem split_join {a : Text} {args : List Text} (h : ∀ x ∈ a :: args, IsArgument x) :
    split (Text.join ", " (a :: args)) = a :: args := by
  have hbefore : ∀ p ∈ ([] : Text), p.isBlank = true := by decide
  have hafter : ∀ p ∈ ([.char ' '] : Text), p.isBlank = true := by decide
  have hempty : a :: args ≠ [[]] := by
    rintro ⟨⟩
    exact (h _ List.mem_cons_self).ne_nil rfl
  exact split_join_comma hbefore hafter (List.cons_ne_nil a args) hempty
    fun x hx => ⟨(h x hx).trimmed, (h x hx).nested.balanced⟩

end Arguments

end LvglForest
