import LvglForest.Source.Arguments
import LvglForest.Proofs.Source.Literal

/-!
# Balanced text

In balanced text literals are closed, and so are the brackets of the given kinds around text that is
balanced again (`Balanced`). The search for the closing parenthesis counts parentheses alone, so it
ends at the first one before which the text is balanced in parentheses (`capture_eq_some_iff`). The
search for commas counts brackets of all kinds, so it finds exactly the commas outside of balanced
brackets (`split_join_comma`).

What is written between the parentheses of a call from balanced arguments is thus captured as a
whole and taken apart into the same arguments (`captureAt_split`).
-/

namespace LvglForest.Arguments

/-! ## The grammar -/

/-- The two parentheses. -/
def parentheses : List (CodePoint × CodePoint) := [(.char '(', .char ')')]

/-- The two brackets of each kind. -/
def brackets : List (CodePoint × CodePoint) :=
  [(.char '(', .char ')'), (.char '[', .char ']'), (.char '\x7b', .char '\x7d')]

theorem ne_of_isQuote {quote p : CodePoint} (hquote : Lexical.isQuote quote = true)
    (hp : Lexical.isQuote p = false) : quote ≠ p := by
  rintro rfl
  rw [hquote] at hp
  cases hp

/-- Text in which literals and brackets of the given kinds are closed. The flag allows commas outside
of them. -/
inductive Balanced (pairs : List (CodePoint × CodePoint)) : Bool → Text → Prop
  | nil {comma : Bool} : Balanced pairs comma []
  | plain {comma : Bool} {p : CodePoint} {t : Text} (hquote : Lexical.isQuote p = false)
      (hpairs : ∀ pair ∈ pairs, p ≠ pair.1 ∧ p ≠ pair.2) (hcomma : comma = true ∨ p ≠ .char ',')
      (ht : Balanced pairs comma t) : Balanced pairs comma (p :: t)
  | literal {comma : Bool} {quote : CodePoint} {b t : Text} (hquote : Lexical.isQuote quote = true)
      (hb : Literal.IsBody quote b) (ht : Balanced pairs comma t) :
      Balanced pairs comma (quote :: b ++ quote :: t)
  | group {comma : Bool} {pair : CodePoint × CodePoint} {u t : Text} (hpair : pair ∈ pairs)
      (hu : Balanced pairs true u) (ht : Balanced pairs comma t) :
      Balanced pairs comma (pair.1 :: u ++ pair.2 :: t)

namespace Balanced

variable {pairs : List (CodePoint × CodePoint)} {comma : Bool}

theorem append {s t : Text} (hs : Balanced pairs comma s) (ht : Balanced pairs comma t) :
    Balanced pairs comma (s ++ t) := by
  induction hs with
  | nil => exact ht
  | plain hquote hpairs hcomma _ ih => exact .plain hquote hpairs hcomma (ih ht)
  | literal hquote hb _ ih =>
    have h := Balanced.literal hquote hb (ih ht)
    simpa only [List.cons_append, List.append_assoc] using h
  | group hpair hu _ _ ih =>
    have h := Balanced.group hpair hu (ih ht)
    simpa only [List.cons_append, List.append_assoc] using h

theorem of_plain {t : Text} (h : ∀ p ∈ t, Lexical.isQuote p = false ∧
    (∀ pair ∈ pairs, p ≠ pair.1 ∧ p ≠ pair.2) ∧ (comma = true ∨ p ≠ .char ',')) :
    Balanced pairs comma t := by
  induction t with
  | nil => exact .nil
  | cons p t ih =>
    rw [List.forall_mem_cons] at h
    exact .plain h.1.1 h.1.2.1 h.1.2.2 (ih h.2)

/-- Blanks mean nothing between brackets. -/
theorem of_isBlank {t : Text} (h : ∀ p ∈ t, p.isBlank = true) : Balanced brackets comma t := by
  have hne {p q : CodePoint} (hp : p.isBlank = true) (hq : q.isBlank = false) : p ≠ q := by
    rintro rfl
    rw [hp] at hq
    cases hq
  refine of_plain fun p hp => ⟨?_, ?_, .inr (hne (h p hp) rfl)⟩
  · simp [Lexical.isQuote, hne (h p hp) (q := .char '"') rfl, hne (h p hp) (q := .char '\'') rfl]
  · have hbracket : ∀ pair ∈ brackets, pair.1.isBlank = false ∧ pair.2.isBlank = false := by decide
    exact fun pair hpair =>
      ⟨hne (h p hp) (hbracket pair hpair).1, hne (h p hp) (hbracket pair hpair).2⟩

/-- Where commas are not allowed they may be allowed as well. -/
theorem allow {t : Text} (h : Balanced pairs comma t) : Balanced pairs true t := by
  induction h with
  | nil => exact .nil
  | plain hquote hpairs _ _ ih => exact .plain hquote hpairs (.inl rfl) ih
  | literal hquote hb _ ih => exact .literal hquote hb ih
  | group hpair hu _ _ ih => exact .group hpair hu ih

/-- Balanced texts put together with a separator. -/
theorem join {sep : Text} (hsep : Balanced pairs true sep) {ts : List Text}
    (h : ∀ t ∈ ts, Balanced pairs comma t) : Balanced pairs true (Text.join sep ts) := by
  induction ts with
  | nil => exact .nil
  | cons t ts ih =>
    rw [List.forall_mem_cons] at h
    cases ts with
    | nil => exact h.1.allow
    | cons u ts => exact (h.1.allow.append hsep).append (ih h.2)

/-- What is balanced in brackets of all kinds is balanced in parentheses, where the other brackets
mean nothing and commas may stand between them. -/
theorem inParentheses {t : Text} (h : Balanced brackets comma t) :
    Balanced parentheses true t := by
  induction h with
  | nil => exact .nil
  | plain hquote hpairs _ _ ih =>
    refine .plain hquote ?_ (.inl rfl) ih
    rw [parentheses, List.forall_mem_singleton]
    exact hpairs _ List.mem_cons_self
  | literal hquote hb _ ih => exact .literal hquote hb ih
  | @group _ pair u t hpair _ _ ihu iht =>
    have hother {p : CodePoint} (hquote : Lexical.isQuote p = false)
        (hp : p ≠ .char '(' ∧ p ≠ .char ')') {t : Text} (ht : Balanced parentheses true t) :
        Balanced parentheses true (p :: t) :=
      .plain hquote (List.forall_mem_singleton.2 hp) (.inl rfl) ht
    simp only [brackets, List.mem_cons, List.not_mem_nil, or_false] at hpair
    rcases hpair with rfl | rfl | rfl
    · exact .group List.mem_cons_self ihu iht
    · exact hother rfl (by decide) (ihu.append (hother rfl (by decide) iht))
    · exact hother rfl (by decide) (ihu.append (hother rfl (by decide) iht))

end Balanced

/-! ## The closing parenthesis -/

theorem upToClosing_code {p : CodePoint} (h : p ≠ .char ')') (depth : Int) (t : Text) :
    upToClosing .code depth (p :: t) =
      (upToClosing (Lexical.code.next p) (if p = .char '(' then depth + 1 else depth) t).map
        (p :: ·) := by
  rw [upToClosing, if_neg h]

theorem upToClosing_in {s : Lexical} (h : s ≠ .code) (depth : Int) (p : CodePoint) (t : Text) :
    upToClosing s depth (p :: t) = (upToClosing (s.next p) depth t).map (p :: ·) := by
  cases s with
  | code => exact absurd rfl h
  | _ => rfl

theorem upToClosing_body {quote : CodePoint} {b : Text} (hb : Literal.IsBody quote b)
    (hquote : quote ≠ .char '\\') (depth : Int) (r : Text) :
    upToClosing (.literal quote) depth (b ++ quote :: r) =
      (upToClosing .code depth r).map ((b ++ [quote]) ++ ·) := by
  have hin : Lexical.literal quote ≠ .code := by simp
  induction hb with
  | nil =>
    rw [List.nil_append, upToClosing_in hin, Lexical.next, if_neg hquote, if_pos rfl]
    rfl
  | @plain p t hne hescape _ ih =>
    rw [List.cons_append, upToClosing_in hin, Lexical.next, if_neg hescape, if_neg hne, ih]
    simp [Option.map_map, Function.comp_def]
  | @escape p t _ ih =>
    rw [List.cons_append, List.cons_append, upToClosing_in hin, Lexical.next, if_pos rfl,
      upToClosing_in (by simp), Lexical.next, ih]
    simp [Option.map_map, Function.comp_def]

/-- Where a parenthesis is closed behind a literal, the literal is closed before it. -/
theorem exists_body_of_upToClosing {quote : CodePoint} {depth : Int} {t v : Text}
    (h : upToClosing (.literal quote) depth t = some v) :
    ∃ b r, Literal.IsBody quote b ∧ t = b ++ quote :: r := by
  induction hn : t.length using Nat.strong_induction_on generalizing t v with
  | h n ih =>
    subst hn
    cases t with
    | nil => cases h
    | cons p t =>
      rw [upToClosing_in (by simp), Lexical.next] at h
      obtain ⟨x, hx, -⟩ := Option.map_eq_some_iff.1 h
      split at hx
      · next hescape =>
        subst hescape
        cases t with
        | nil => cases hx
        | cons q t =>
          rw [upToClosing_in (by simp), Lexical.next] at hx
          obtain ⟨y, hy, -⟩ := Option.map_eq_some_iff.1 hx
          obtain ⟨b, r, hb, rfl⟩ := ih t.length (by simp only [List.length_cons]; omega) hy rfl
          exact ⟨_, r, .escape q hb, rfl⟩
      next hescape =>
      split at hx
      · next hclose => exact ⟨[], t, .nil, by rw [hclose]; rfl⟩
      · next hquote =>
        obtain ⟨b, r, hb, rfl⟩ := ih t.length (Nat.lt_succ_self _) hx rfl
        exact ⟨_, r, .plain hquote hescape hb, rfl⟩

/-- Text that is balanced in parentheses is passed at any depth that is not zero. -/
theorem upToClosing_balanced {comma : Bool} {u : Text} (hu : Balanced parentheses comma u)
    {depth : Int} (hdepth : 1 ≤ depth) (r : Text) :
    upToClosing .code depth (u ++ r) = (upToClosing .code depth r).map (u ++ ·) := by
  induction hu generalizing depth r with
  | nil => simp
  | @plain _ p t hquote hpairs _ _ ih =>
    obtain ⟨hopen, hclose⟩ := hpairs _ List.mem_cons_self
    rw [List.cons_append, upToClosing_code hclose, if_neg hopen, Lexical.next, hquote]
    simp [ih hdepth, Function.comp_def]
  | @literal _ quote b t hquote hb _ ih =>
    have hclose : quote ≠ .char ')' := ne_of_isQuote hquote rfl
    have hopen : quote ≠ .char '(' := ne_of_isQuote hquote rfl
    have hescape : quote ≠ .char '\\' := ne_of_isQuote hquote rfl
    have hnext : Lexical.code.next quote = .literal quote := by rw [Lexical.next, if_pos hquote]
    rw [List.cons_append, List.cons_append, List.append_assoc, List.cons_append,
      upToClosing_code hclose, if_neg hopen, hnext, upToClosing_body hb hescape, ih hdepth]
    simp [Option.map_map, Function.comp_def]
  | @group _ pair u t hpair _ _ ihu iht =>
    cases List.mem_singleton.1 hpair
    have hnext : Lexical.code.next (.char '(') = .code := rfl
    rw [List.cons_append, List.cons_append, List.append_assoc, List.cons_append,
      upToClosing_code (by decide), if_pos rfl, hnext, ihu (by omega), upToClosing, if_pos rfl,
      if_neg (by omega), show depth + 1 - 1 = depth by omega, iht hdepth]
    simp [Option.map_map, Function.comp_def]

/-- What is closed at one depth is closed at a lower one. -/
theorem exists_upToClosing_of_succ {s : Lexical} {depth : Int} (hdepth : 1 ≤ depth) {t v : Text}
    (h : upToClosing s (depth + 1) t = some v) : ∃ w, upToClosing s depth t = some w := by
  induction t generalizing s depth v with
  | nil => cases s <;> cases h
  | cons p t ih =>
    have hkeep {s : Lexical} {depth : Int} (hdepth : 1 ≤ depth) {v : Text}
        (h : (upToClosing s (depth + 1) t).map (p :: ·) = some v) :
        ∃ w, (upToClosing s depth t).map (p :: ·) = some w := by
      obtain ⟨x, hx, -⟩ := Option.map_eq_some_iff.1 h
      obtain ⟨w, hw⟩ := ih hdepth hx
      exact ⟨_, by rw [hw]; rfl⟩
    by_cases hs : s = .code
    · subst hs
      by_cases hp : p = .char ')'
      · rw [upToClosing, if_pos hp] at h ⊢
        by_cases hone : depth = 1
        · exact ⟨_, if_pos hone⟩
        · rw [if_neg (by omega), show depth + 1 - 1 = depth - 1 + 1 by omega] at h
          rw [if_neg hone]
          exact hkeep (by omega) h
      · rw [upToClosing_code hp] at h ⊢
        split at h
        · next hopen =>
          rw [if_pos hopen]
          exact hkeep (by omega) h
        · next hopen =>
          rw [if_neg hopen]
          exact hkeep hdepth h
    · rw [upToClosing_in hs] at h ⊢
      exact hkeep hdepth h

/-- Up to the parenthesis that closes another one the text is balanced. -/
theorem balanced_of_upToClosing {t v : Text} (h : upToClosing .code 1 t = some v) :
    ∃ r, t = v ++ .char ')' :: r ∧ Balanced parentheses true v := by
  induction hn : t.length using Nat.strong_induction_on generalizing t v with
  | h n ih =>
    subst hn
    cases t with
    | nil => cases h
    | cons p t =>
      by_cases hclose : p = .char ')'
      · subst hclose
        rw [upToClosing, if_pos rfl, if_pos rfl] at h
        cases h
        exact ⟨t, rfl, .nil⟩
      rw [upToClosing_code hclose] at h
      by_cases hopen : p = .char '('
      · -- The group ends at its own parenthesis, and the search goes on behind it.
        subst hopen
        rw [if_pos rfl, show Lexical.code.next (.char '(') = .code from rfl] at h
        obtain ⟨x, hx, rfl⟩ := Option.map_eq_some_iff.1 h
        obtain ⟨u, hu⟩ := exists_upToClosing_of_succ (Int.le_refl 1) hx
        obtain ⟨r, rfl, hbalanced⟩ := ih t.length (Nat.lt_succ_self _) hu rfl
        rw [upToClosing_balanced hbalanced (by omega), upToClosing, if_pos rfl, if_neg (by omega),
          Option.map_map] at hx
        obtain ⟨y, hy, rfl⟩ := Option.map_eq_some_iff.1 hx
        obtain ⟨s, rfl, hrest⟩ := ih r.length (by simp only [List.length_cons, List.length_append]; omega) hy rfl
        exact ⟨s, by simp, .group List.mem_cons_self hbalanced hrest⟩
      rw [if_neg hopen] at h
      obtain ⟨x, hx, rfl⟩ := Option.map_eq_some_iff.1 h
      by_cases hquote : Lexical.isQuote p = true
      · have hescape : p ≠ .char '\\' := ne_of_isQuote hquote rfl
        rw [Lexical.next, if_pos hquote] at hx
        obtain ⟨b, r, hb, rfl⟩ := exists_body_of_upToClosing hx
        rw [upToClosing_body hb hescape] at hx
        obtain ⟨y, hy, rfl⟩ := Option.map_eq_some_iff.1 hx
        obtain ⟨s, rfl, hrest⟩ := ih r.length (by simp only [List.length_cons, List.length_append]; omega) hy rfl
        have hliteral := Balanced.literal hquote hb hrest
        exact ⟨s, by simp, by simpa using hliteral⟩
      · rw [Bool.not_eq_true] at hquote
        rw [Lexical.next, hquote] at hx
        obtain ⟨s, rfl, hrest⟩ := ih t.length (Nat.lt_succ_self _) hx rfl
        refine ⟨s, rfl, .plain hquote ?_ (.inl rfl) hrest⟩
        exact List.forall_mem_singleton.2 ⟨hopen, hclose⟩

/-- **The matching parenthesis** is the first one before which the text is balanced. -/
theorem capture_eq_some_iff {t u : Text} : capture (.char '(' :: t) = some u ↔
    ∃ r, t = u ++ .char ')' :: r ∧ Balanced parentheses true u := by
  have hcapture : capture (.char '(' :: t) = upToClosing .code 1 t := by
    rw [capture, upToClosing_code (by decide), if_pos rfl]
    simp [Lexical.next, Lexical.isQuote, Function.comp_def]
  rw [hcapture]
  refine ⟨balanced_of_upToClosing, ?_⟩
  rintro ⟨r, rfl, hu⟩
  rw [upToClosing_balanced hu (Int.le_refl 1), upToClosing, if_pos rfl, if_pos rfl]
  simp

/-! ## Commas -/

theorem ontoFirst_cons (p : CodePoint) (l : Text) (ls : List Text) :
    Text.ontoFirst p (l :: ls) = (p :: l) :: ls := rfl

theorem pieces_in {s : Lexical} (h : s ≠ .code) (depth : Int) (p : CodePoint) (t : Text) :
    pieces s depth (p :: t) = Text.ontoFirst p (pieces (s.next p) depth t) := by
  cases s with
  | code => exact absurd rfl h
  | _ => rfl

theorem pieces_body {quote : CodePoint} {b : Text} (hb : Literal.IsBody quote b)
    (hquote : quote ≠ .char '\\') {depth : Int} {r l : Text} {ls : List Text}
    (hr : pieces .code depth r = l :: ls) :
    pieces (.literal quote) depth (b ++ quote :: r) = (b ++ quote :: l) :: ls := by
  have hin : Lexical.literal quote ≠ .code := by simp
  induction hb with
  | nil =>
    rw [List.nil_append, pieces_in hin, Lexical.next, if_neg hquote, if_pos rfl, hr]
    rfl
  | @plain p t hne hescape _ ih =>
    rw [List.cons_append, pieces_in hin, Lexical.next, if_neg hescape, if_neg hne, ih]
    rfl
  | @escape p t _ ih =>
    rw [List.cons_append, List.cons_append, pieces_in hin, Lexical.next, if_pos rfl,
      pieces_in (by simp), Lexical.next, ih]
    rfl

/-- A bracket opens one level of nesting, its partner closes it, and neither is a quote or a
comma. -/
theorem depthAfter_brackets {pair : CodePoint × CodePoint} (h : pair ∈ brackets) (depth : Int) :
    (depthAfter depth pair.1 = depth + 1 ∧ depthAfter depth pair.2 = depth - 1) ∧
      (Lexical.code.next pair.1 = .code ∧ Lexical.code.next pair.2 = .code) ∧
      pair.1 ≠ .char ',' ∧ pair.2 ≠ .char ',' := by
  simp only [brackets, List.mem_cons, List.not_mem_nil, or_false] at h
  rcases h with rfl | rfl | rfl <;> exact ⟨⟨rfl, rfl⟩, ⟨rfl, rfl⟩, by decide, by decide⟩

/-- No other code point changes the level. -/
theorem depthAfter_plain {p : CodePoint} (h : ∀ pair ∈ brackets, p ≠ pair.1 ∧ p ≠ pair.2)
    (depth : Int) : depthAfter depth p = depth := by
  simp only [brackets, List.forall_mem_cons, List.not_mem_nil, false_implies, implies_true,
    and_true] at h
  simp [depthAfter, isOpening, isClosing, h]

/-- Balanced text stays in one piece. Commas in it do not count below depth zero. -/
theorem pieces_balanced {comma : Bool} {u : Text} (hu : Balanced brackets comma u) {depth : Int}
    (hdepth : 0 ≤ depth) (hcomma : comma = true → 1 ≤ depth) {r l : Text} {ls : List Text}
    (hr : pieces .code depth r = l :: ls) : pieces .code depth (u ++ r) = (u ++ l) :: ls := by
  induction hu generalizing depth r l ls with
  | nil => exact hr
  | @plain comma p t hquote hpairs hc _ ih =>
    have hsep : ¬ (p = .char ',' ∧ depth = 0) := by
      rintro ⟨rfl, hzero⟩
      rcases hc with hc | hc
      · have := hcomma hc
        omega
      · exact hc rfl
    rw [List.cons_append, pieces, if_neg hsep, depthAfter_plain hpairs, Lexical.next, hquote]
    simp only [Bool.false_eq_true, if_false]
    rw [ih hdepth hcomma hr]
    rfl
  | @literal comma quote b t hquote hb _ ih =>
    have hsep : quote ≠ .char ',' := ne_of_isQuote hquote rfl
    have hescape : quote ≠ .char '\\' := ne_of_isQuote hquote rfl
    have hnext : Lexical.code.next quote = .literal quote := by rw [Lexical.next, if_pos hquote]
    have hlevel : depthAfter depth quote = depth := by
      refine depthAfter_plain (fun pair hpair => ⟨?_, ?_⟩) depth
      all_goals
        rintro rfl
        have hcode := (depthAfter_brackets hpair depth).2.1
        simp [Lexical.next, hquote] at hcode
    rw [List.cons_append, List.cons_append, List.append_assoc, List.cons_append, pieces,
      if_neg (fun h => hsep h.1), hnext, hlevel, pieces_body hb hescape (ih hdepth hcomma hr)]
    simp [ontoFirst_cons]
  | @group comma pair u t hpair _ _ ihu iht =>
    obtain ⟨-, ⟨hnext, hnext'⟩, hsep, hsep'⟩ := depthAfter_brackets hpair depth
    have hopen := (depthAfter_brackets hpair depth).1.1
    have hclose : depthAfter (depth + 1) pair.2 = depth := by
      rw [(depthAfter_brackets hpair (depth + 1)).1.2]
      omega
    have hafter : pieces .code (depth + 1) (pair.2 :: (t ++ r)) = (pair.2 :: (t ++ l)) :: ls := by
      rw [pieces, if_neg (fun h => hsep' h.1), hclose, hnext', iht hdepth hcomma hr]
      rfl
    rw [List.cons_append, List.cons_append, List.append_assoc, List.cons_append, pieces,
      if_neg (fun h => hsep h.1), hopen, hnext, ihu (by omega) (by omega) hafter]
    simp [ontoFirst_cons]

theorem pieces_argument {u : Text} (hu : Balanced brackets false u) : pieces .code 0 u = [u] := by
  have hnil : pieces .code 0 [] = [[]] := rfl
  simpa using pieces_balanced hu (Int.le_refl 0) (fun h => nomatch h) hnil

theorem pieces_argument_comma {u : Text} (hu : Balanced brackets false u) (r : Text) :
    pieces .code 0 (u ++ .char ',' :: r) = u :: pieces .code 0 r := by
  have hcomma : pieces .code 0 (.char ',' :: r) = [] :: pieces .code 0 r := by
    rw [pieces, if_pos ⟨rfl, rfl⟩]
  simpa using pieces_balanced hu (Int.le_refl 0) (fun h => nomatch h) hcomma

section Separator

variable {before after : Text} (hbefore : ∀ p ∈ before, p.isBlank = true)
  (hafter : ∀ p ∈ after, p.isBlank = true)
include hbefore hafter

/-- The blanks around the commas, and those before the first argument, are taken off. -/
theorem map_strip_pieces {a : Text} {args : List Text}
    (h : ∀ x ∈ a :: args, x.IsTrimmed ∧ Balanced brackets false x) {w : Text}
    (hw : ∀ p ∈ w, p.isBlank = true) :
    (pieces .code 0 (w ++ Text.join (before ++ .char ',' :: after) (a :: args))).map Text.strip =
      a :: args := by
  induction args generalizing a w with
  | nil =>
    obtain ⟨htrimmed, hbalanced⟩ := h a List.mem_cons_self
    rw [Text.join, pieces_argument ((Balanced.of_isBlank hw).append hbalanced), List.map_singleton,
      Text.strip_blank_append hw, Text.strip_eq_self htrimmed]
  | cons b args ih =>
    rw [List.forall_mem_cons] at h
    obtain ⟨htrimmed, hbalanced⟩ := h.1
    have hjoin : w ++ Text.join (before ++ .char ',' :: after) (a :: b :: args) =
        w ++ a ++ before ++
          .char ',' :: (after ++ Text.join (before ++ .char ',' :: after) (b :: args)) := by
      simp [Text.join]
    have hpiece : Balanced brackets false (w ++ a ++ before) :=
      ((Balanced.of_isBlank hw).append hbalanced).append (.of_isBlank hbefore)
    rw [hjoin, pieces_argument_comma hpiece, List.map_cons, ih h.2 hafter,
      Text.strip_append_blank hbefore, Text.strip_blank_append hw, Text.strip_eq_self htrimmed]

/-- **Balanced arguments** that are put together with commas, and any blanks around the commas, are
taken apart into the same arguments. Only a single empty argument is none. -/
theorem split_join_comma {args : List Text} (hne : args ≠ []) (hempty : args ≠ [[]])
    (h : ∀ a ∈ args, a.IsTrimmed ∧ Balanced brackets false a) :
    split (Text.join (before ++ .char ',' :: after) args) = args := by
  obtain ⟨a, args, rfl⟩ := List.exists_cons_of_ne_nil hne
  have hvisible : Text.isBlank (Text.join (before ++ .char ',' :: after) (a :: args)) = false := by
    cases args with
    | nil =>
      have ha : a ≠ [] := fun hnil => hempty (by rw [hnil])
      obtain ⟨p, t, rfl⟩ := List.exists_cons_of_ne_nil ha
      have hp : p.isBlank = false := (h _ List.mem_cons_self).1.head p rfl
      simp [Text.join, Text.isBlank, hp]
    | cons b args =>
      have hcomma : (CodePoint.char ',').isBlank = false := rfl
      simp [Text.join, Text.isBlank, hcomma]
  rw [split, hvisible]
  have hnil : ∀ p ∈ ([] : Text), p.isBlank = true := by decide
  exact map_strip_pieces hbefore hafter h hnil

end Separator

/-! ## Calls -/

/-- Of a text the part before a place does not count to what is captured there. -/
theorem captureAt_append (s t : Text) : captureAt (s ++ t) s.length = .ok (capture t) := by
  show Except.ok (capture ((s ++ t).drop s.length)) = _
  rw [List.drop_left]

/-- **Calls are taken apart.** Whatever stands before and after the parentheses of a call with
balanced arguments, the text between them is captured as it is and taken apart into the arguments.
What is captured after an opening parenthesis is the text up to the matching one, and nothing is
captured exactly if there is none. -/
theorem captureAt_split (s : Text) :
    (∀ (args : List Text) (before after rest : Text), args ≠ [] → args ≠ [[]] →
      (∀ a ∈ args, a.IsTrimmed ∧ Balanced brackets false a) →
      (∀ p ∈ before, p.isBlank = true) → (∀ p ∈ after, p.isBlank = true) →
      ∃ inner, inner = Text.join (before ++ .char ',' :: after) args ∧
        captureAt (s ++ .char '(' :: inner ++ .char ')' :: rest) s.length = .ok (some inner) ∧
        split inner = args) ∧
    ∀ t : Text,
      (∀ u, captureAt (s ++ .char '(' :: t) s.length = .ok (some u) ↔
        ∃ r, t = u ++ .char ')' :: r ∧ Balanced parentheses true u) ∧
      (captureAt (s ++ .char '(' :: t) s.length = .ok none ↔
        ¬ ∃ u r, t = u ++ .char ')' :: r ∧ Balanced parentheses true u) := by
  constructor
  · intro args before after rest hne hempty h hbefore hafter
    have hcomma : Balanced brackets true (before ++ .char ',' :: after) :=
      (Balanced.of_isBlank hbefore).append
        (.plain rfl (by decide) (.inl rfl) (.of_isBlank hafter))
    have hinner := (Balanced.join hcomma fun a ha => (h a ha).2).inParentheses
    refine ⟨_, rfl, ?_, split_join_comma hbefore hafter hne hempty h⟩
    rw [List.append_assoc, captureAt_append, List.cons_append,
      capture_eq_some_iff.2 ⟨rest, rfl, hinner⟩]
  · intro t
    rw [captureAt_append]
    simp only [Except.ok.injEq]
    refine ⟨fun u => capture_eq_some_iff, ?_⟩
    rw [Option.eq_none_iff_forall_ne_some, not_exists]
    exact forall_congr' fun u => not_congr capture_eq_some_iff

/-- A nested call with an index, a literal with a comma and a parenthesis, a character literal with a
parenthesis, an empty argument and a list in braces. -/
theorem captureAt_split_nested :
    let args : List Text := ["g(a, [1])", "\"a,)\\\"\"", "'('", "", "\x7b0, 1\x7d"]
    let inner : Text := "g(a, [1]), \"a,)\\\"\", '(', , \x7b0, 1\x7d"
    (∀ a ∈ args, a.IsTrimmed ∧ Balanced brackets false a) ∧
      args ≠ [] ∧ args ≠ [[]] ∧ (∀ p ∈ (" " : Text), p.isBlank = true) ∧
      captureAt (("x = f(" : Text) ++ inner ++ (") - (y)" : Text)) 5 = .ok (some inner) ∧
      split inner = args := by
  repeat rw [Text.ofString_ofList]
  intro args inner
  have htrimmed : ∀ a ∈ args, a.IsTrimmed := by
    have hstrip : ∀ a ∈ args, a.strip = a := by decide
    exact fun a ha => hstrip a ha ▸ a.isTrimmed_strip
  have hcall : Balanced brackets false ("g(a, [1])" : Text) := by
    have hsplit : ("g(a, [1])" : Text) = ("g" : Text) ++ (.char '(' :: (("a, " : Text) ++
        (.char '[' :: ("1" : Text) ++ .char ']' :: [])) ++ .char ')' :: []) := by decide
    have hindex : Balanced brackets true (.char '[' :: ("1" : Text) ++ .char ']' :: []) :=
      .group (show (CodePoint.char '[', CodePoint.char ']') ∈ brackets by decide)
        (.of_plain (by decide)) .nil
    have hfirst : Balanced brackets true ("a, " : Text) := .of_plain (by decide)
    rw [hsplit]
    refine (Balanced.of_plain (by decide)).append ?_
    exact .group (show (CodePoint.char '(', CodePoint.char ')') ∈ brackets by decide)
      (hfirst.append hindex) .nil
  have hliteral : Balanced brackets false ("\"a,)\\\"\"" : Text) := by
    have hsplit : ("\"a,)\\\"\"" : Text) = .char '"' :: "a,)\\\"" ++ .char '"' :: [] := by decide
    have hbody : Literal.IsBody (.char '"') ("a,)\\\"" : Text) :=
      .plain (by decide) (by decide) (.plain (by decide) (by decide)
        (.plain (by decide) (by decide) (.escape (.char '"') .nil)))
    rw [hsplit]
    exact .literal rfl hbody .nil
  have hcharacter : Balanced brackets false ("'('" : Text) := by
    have hsplit : ("'('" : Text) = .char '\'' :: [.char '('] ++ .char '\'' :: [] := by decide
    rw [hsplit]
    exact .literal rfl (.plain (by decide) (by decide) .nil) .nil
  have hlist : Balanced brackets false ("\x7b0, 1\x7d" : Text) := by
    have hsplit : ("\x7b0, 1\x7d" : Text) =
        .char '\x7b' :: "0, 1" ++ .char '\x7d' :: [] := by decide
    rw [hsplit]
    exact .group (show (CodePoint.char '\x7b', CodePoint.char '\x7d') ∈ brackets by decide)
      (.of_plain (by decide)) .nil
  have hargs : ∀ a ∈ args, a.IsTrimmed ∧ Balanced brackets false a := by
    refine fun a ha => ⟨htrimmed a ha, ?_⟩
    revert a
    simp only [args, List.forall_mem_cons]
    exact ⟨hcall, hliteral, hcharacter, .nil, hlist, fun a ha => absurd ha List.not_mem_nil⟩
  have hblank : ∀ p ∈ (" " : Text), p.isBlank = true := by decide
  have hline : ("x = f(" : Text) ++ inner ++ (") - (y)" : Text) =
      ("x = f" : Text) ++ .char '(' :: inner ++ .char ')' :: (" - (y)" : Text) := by decide
  obtain ⟨inner', hinner, hcapture, hsplit⟩ := (captureAt_split "x = f").1 args [] " " " - (y)"
    (by decide) (by decide) hargs (fun p hp => absurd hp List.not_mem_nil) hblank
  have hsame : inner' = inner := by rw [hinner]; decide
  rw [hsame] at hcapture hsplit
  exact ⟨hargs, by decide, by decide, hblank, (congrArg (captureAt · 5) hline).trans hcapture,
    hsplit⟩

end LvglForest.Arguments
