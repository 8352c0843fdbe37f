import LvglForest.Source.Comment
import LvglForest.Proofs.Source.Literal
import LvglForest.Proofs.Text.Blank
import LvglForest.Proofs.Text.Word

/-!
# Lines with and without comments

Code in which no slash and no quote occurs is kept as it is (`stripCode_append`), and so is a whole
literal, whatever stands inside (`stripCode_literal`): a comment mark in a literal is text. Text that
is kept whatever follows it (`Kept`) can be put together.

A block comment ends at its first end (`stripBlock_close`), and a line that goes on is read on from
where it ended: in a line comment, in a block comment, in code or in a literal (`resumes`). So
blanks and comments behind code leave the code (`strip_append_blank`, `strip_append_comment`).
-/

namespace LvglForest.Comment

/-- Puts a text before the code of a line. -/
def keepAll (u : Text) (line : Text × Bool) : Text × Bool := (u ++ line.1, line.2)

theorem keep_keepAll (p : CodePoint) (u : Text) (line : Text × Bool) :
    keep p (keepAll u line) = keepAll (p :: u) line := rfl

theorem keepAll_keepAll (u v : Text) (line : Text × Bool) :
    keepAll u (keepAll v line) = keepAll (u ++ v) line := by
  simp [keepAll]

theorem stripCode_cons {p : CodePoint} (hp : p ≠ .char '/') (t : Text) :
    stripCode .code (p :: t) = keep p (stripCode (Lexical.code.next p) t) := by
  rw [stripCode]
  · exact fun r _ h => absurd h hp
  · exact fun r _ h => absurd h hp

theorem stripCode_in {s : Lexical} (hs : s ≠ .code) (p : CodePoint) (t : Text) :
    stripCode s (p :: t) = keep p (stripCode (s.next p) t) := by
  rw [stripCode]
  · exact fun r h => absurd h hs
  · exact fun r h => absurd h hs

/-- A code point that starts neither a comment nor a literal. -/
def isInert (p : CodePoint) : Bool := !(p = .char '/' || Lexical.isQuote p)

theorem stripCode_append {u : Text} (hu : ∀ p ∈ u, isInert p = true) (t : Text) :
    stripCode .code (u ++ t) = keepAll u (stripCode .code t) := by
  induction u with
  | nil => rfl
  | cons p u ih =>
    rw [List.forall_mem_cons] at hu
    have hp := hu.1
    simp only [isInert, Bool.not_eq_true', Bool.or_eq_false_iff, decide_eq_false_iff_not] at hp
    rw [List.cons_append, stripCode_cons hp.1, Lexical.next, hp.2, if_neg Bool.false_ne_true,
      ih hu.2, keep_keepAll]

theorem stripCode_body {quote : CodePoint} {b : Text} (hb : Literal.IsBody quote b)
    (hquote : quote ≠ .char '\\') (t : Text) :
    stripCode (.literal quote) (b ++ quote :: t) = keepAll (b ++ [quote]) (stripCode .code t) := by
  have hin : Lexical.literal quote ≠ .code := by simp
  induction hb with
  | nil => rw [List.nil_append, stripCode_in hin, Lexical.next, if_neg hquote, if_pos rfl]; rfl
  | @plain p s hne hescape _ ih =>
    rw [List.cons_append, stripCode_in hin, Lexical.next, if_neg hescape, if_neg hne, ih,
      keep_keepAll]
    rfl
  | @escape p s _ ih =>
    rw [List.cons_append, List.cons_append, stripCode_in hin, Lexical.next, if_pos rfl,
      stripCode_in (by simp), Lexical.next, ih, keep_keepAll, keep_keepAll]
    rfl

/-- Within a literal no comment starts. -/
theorem stripCode_unclosed {quote : CodePoint} {b x : Text} (hb : Literal.IsBody quote b)
    (hx : x <+: b) : stripCode (.literal quote) x = (x, false) := by
  have hin : Lexical.literal quote ≠ .code := by simp
  induction hb generalizing x with
  | nil =>
    rw [List.prefix_nil.1 hx]
    rfl
  | @plain p t hne hescape _ ih =>
    rcases List.prefix_cons_iff.1 hx with rfl | ⟨y, rfl, hy⟩
    · rfl
    · rw [stripCode_in hin, Lexical.next, if_neg hescape, if_neg hne, ih hy]
      rfl
  | @escape p t _ ih =>
    rcases List.prefix_cons_iff.1 hx with rfl | ⟨y, rfl, hy⟩
    · rfl
    · rw [stripCode_in hin, Lexical.next, if_pos rfl]
      rcases List.prefix_cons_iff.1 hy with rfl | ⟨z, rfl, hz⟩
      · rfl
      · rw [stripCode_in (by simp), Lexical.next, ih hz]
        rfl

/-- **A literal is kept whole.** -/
theorem stripCode_literal {b : Text} (hb : Literal.IsBody (.char '"') b) (t : Text) :
    stripCode .code (.char '"' :: b ++ .char '"' :: t) =
      keepAll (.char '"' :: b ++ [.char '"']) (stripCode .code t) := by
  have hnext : Lexical.code.next (.char '"') = .literal (.char '"') := rfl
  rw [List.cons_append, stripCode_cons (by decide), hnext, stripCode_body hb (by decide),
    keep_keepAll]
  rfl

theorem isInert_of_isWord {p : CodePoint} (h : p.isWord = true) : isInert p = true := by
  rw [← Bool.not_eq_false]
  intro hp
  simp only [isInert, Bool.not_eq_false', Bool.or_eq_true, Lexical.isQuote, decide_eq_true_eq] at hp
  rcases hp with rfl | rfl | rfl <;> cases h

/-! ## Kept text -/

/-- A text that loses nothing, whatever follows it. -/
def Kept (u : Text) : Prop := ∀ t, stripCode .code (u ++ t) = keepAll u (stripCode .code t)

namespace Kept

theorem of_isInert {u : Text} (hu : ∀ p ∈ u, isInert p = true) : Kept u := stripCode_append hu

theorem of_isWord {u : Text} (hu : u.IsWord) : Kept u :=
  of_isInert fun p hp => isInert_of_isWord (hu.all p hp)

theorem literal {b : Text} (hb : Literal.IsBody (.char '"') b) :
    Kept (.char '"' :: b ++ [.char '"']) := by
  intro t
  rw [← stripCode_literal hb t, List.append_assoc, List.singleton_append]

theorem append {u v : Text} (hu : Kept u) (hv : Kept v) : Kept (u ++ v) := by
  intro t
  rw [List.append_assoc, hu, hv, keepAll_keepAll]

theorem strip_eq {u : Text} (hu : Kept u) : strip false u = (u, false) := by
  have h := hu []
  rw [List.append_nil, stripCode] at h
  rw [strip, if_neg Bool.false_ne_true, h]
  simp [keepAll]

end Kept

/-! ## Inside block comments -/

/-- Text that ends no block comment is nothing but comment. -/
theorem stripBlock_open {t : Text} (ht : ¬ ("*/" : Text) <:+: t) : stripBlock t = ([], true) := by
  induction t with
  | nil => rfl
  | cons p t ih =>
    rw [stripBlock, ih fun h => ht (h.trans (List.suffix_cons p t).isInfix)]
    rintro r rfl rfl
    exact ht ⟨[], r, rfl⟩

/-- A block comment ends at its first end. -/
theorem stripBlock_close {t : Text} (ht : ¬ ("*/" : Text) <:+: t) (r : Text) :
    stripBlock (t ++ ("*/" ++ r)) = keep (.char ' ') (stripCode .code r) := by
  induction t with
  | nil => rfl
  | cons p t ih =>
    rw [List.cons_append, stripBlock, ih fun h => ht (h.trans (List.suffix_cons p t).isInfix)]
    intro s hp hs
    -- The star before the end itself begins no end.
    cases t with
    | nil => cases hs
    | cons q t =>
      rw [List.cons_append, List.cons.injEq] at hs
      exact ht ⟨[], t, by rw [hp, hs.1]; rfl⟩

/-! ## Lines that go on -/

/-- A text that completes no comment mark of the text before it. -/
def IsApart (t : Text) : Prop := ∀ p, t.head? = some p → p ≠ .char '/' ∧ p ≠ .char '*'

/-- What is left of a text of which the given code has been left so far: nothing after a line
comment, what a block comment leaves, or what is code or a literal. -/
def Resumes (strip : Text → Text × Bool) (s : Lexical) (t code : Text) : Prop :=
  (∀ u, IsApart u → strip (t ++ u) = (code, false)) ∨
  (∀ u, IsApart u → strip (t ++ u) = keepAll code (stripBlock u)) ∨
  (∀ u, IsApart u → strip (t ++ u) = keepAll code (stripCode (s.after code) u))

theorem Resumes.keep {strip strip' : Text → Text × Bool} {s : Lexical} {p : CodePoint}
    {t t' code : Text} (h : Resumes strip (s.next p) t code)
    (hstrip : ∀ u, IsApart u → strip' (t' ++ u) = keep p (strip (t ++ u))) :
    Resumes strip' s t' (p :: code) := by
  rcases h with h | h | h
  · exact .inl fun u hu => by rw [hstrip u hu, h u hu]; rfl
  · exact .inr (.inl fun u hu => by rw [hstrip u hu, h u hu]; rfl)
  · exact .inr (.inr fun u hu => by rw [hstrip u hu, h u hu]; rfl)

theorem Resumes.congr {strip strip' : Text → Text × Bool} {s : Lexical} {t t' code : Text}
    (h : Resumes strip s t code) (hstrip : ∀ u, IsApart u → strip' (t' ++ u) = strip (t ++ u)) :
    Resumes strip' s t' code := by
  rcases h with h | h | h
  · exact .inl fun u hu => (hstrip u hu).trans (h u hu)
  · exact .inr (.inl fun u hu => (hstrip u hu).trans (h u hu))
  · exact .inr (.inr fun u hu => (hstrip u hu).trans (h u hu))

/-- No mark stands across the end of a text if none does in it. -/
theorem append_ne {q : CodePoint} {t : Text} (ht : ∀ r, t ≠ q :: r)
    (hq : q = .char '/' ∨ q = .char '*') {u : Text} (hu : IsApart u) (r : Text) :
    t ++ u ≠ q :: r := by
  intro h
  cases t with
  | nil =>
    rw [List.nil_append] at h
    obtain ⟨hslash, hstar⟩ := hu q (by rw [h]; rfl)
    exact hq.elim hslash hstar
  | cons p t =>
    rw [List.cons_append, List.cons.injEq] at h
    exact ht t (by rw [h.1])

/-- **A text is read on from where it ended.** -/
theorem resumes : (∀ t, ∃ code, Resumes stripBlock .code t code) ∧
    ∀ s t, ∃ code, Resumes (stripCode s) s t code := by
  apply stripBlock.mutual_induct
  case case1 => exact ⟨[], .inr (.inl fun u _ => rfl)⟩
  case case2 =>
    rintro t ⟨code, h⟩
    exact ⟨.char ' ' :: code, h.keep fun u _ => rfl⟩
  case case3 =>
    rintro p t hend ⟨code, h⟩
    refine ⟨code, h.congr fun u hu => ?_⟩
    rw [List.cons_append, stripBlock]
    exact fun r hp hr => append_ne (fun r hr => hend r hp hr) (.inl rfl) hu r hr
  case case4 => exact fun s => ⟨[], .inr (.inr fun u _ => rfl)⟩
  case case5 => exact fun t => ⟨[], .inl fun u _ => rfl⟩
  case case6 =>
    rintro t ⟨code, h⟩
    exact ⟨code, h.congr fun u _ => rfl⟩
  case case7 =>
    rintro s p t hline hblock ⟨code, h⟩
    refine ⟨p :: code, h.keep fun u hu => ?_⟩
    rw [List.cons_append, stripCode]
    · exact fun r hs hp hr => append_ne (fun r hr => hline r hs hp hr) (.inl rfl) hu r hr
    · exact fun r hs hp hr => append_ne (fun r hr => hblock r hs hp hr) (.inr rfl) hu r hr

/-! ## Blanks and comments behind a line -/

theorem isInert_of_isBlank {p : CodePoint} (h : p.isBlank = true) :
    isInert p = true ∧ p ≠ .char '*' := by
  refine ⟨?_, ?_⟩
  · rw [← Bool.not_eq_false]
    intro hp
    simp only [isInert, Bool.not_eq_false', Bool.or_eq_true, Lexical.isQuote, decide_eq_true_eq] at hp
    rcases hp with rfl | rfl | rfl <;> cases h
  · rintro rfl
    cases h

theorem after_of_isInert {u : Text} (hu : ∀ p ∈ u, isInert p = true) :
    Lexical.code.after u = .code := by
  induction u with
  | nil => rfl
  | cons p u ih =>
    rw [List.forall_mem_cons] at hu
    have hp := hu.1
    simp only [isInert, Bool.not_eq_true', Bool.or_eq_false_iff] at hp
    have hnext : Lexical.code.next p = .code := by rw [Lexical.next, hp.2, if_neg Bool.false_ne_true]
    rw [Lexical.after, List.foldl_cons, hnext]
    exact ih hu.2

/-- Text without stars ends no block comment. -/
theorem stripBlock_append {u : Text} (hu : ∀ p ∈ u, p ≠ .char '*') (t : Text) :
    stripBlock (u ++ t) = stripBlock t := by
  induction u with
  | nil => rfl
  | cons p u ih =>
    rw [List.forall_mem_cons] at hu
    rw [List.cons_append, stripBlock, ih hu.2]
    exact fun r hp => absurd hp hu.1

/-- Text without slashes starts no comment. -/
theorem stripCode_of_not_mem {t : Text} (ht : .char '/' ∉ t) (s : Lexical) :
    stripCode s t = (t, false) := by
  induction t generalizing s with
  | nil => rw [stripCode]
  | cons p t ih =>
    rw [List.mem_cons, not_or] at ht
    rw [stripCode, ih ht.2]
    · rfl
    · exact fun r _ hp => absurd hp.symm ht.1
    · exact fun r _ hp => absurd hp.symm ht.1

theorem exists_resumes_strip (inBlock : Bool) (t : Text) :
    ∃ code, Resumes (strip inBlock) .code t code := by
  cases inBlock with
  | true => exact resumes.1 t
  | false => exact resumes.2 .code t

theorem isApart_nil : IsApart [] := fun _ h => nomatch h

/-- Blanks behind a line stay blanks, or are part of a comment. -/
theorem strip_append_blank (inBlock : Bool) (t : Text) {w : Text}
    (hw : ∀ p ∈ w, p.isBlank = true) :
    (strip inBlock (t ++ w)).1.strip = (strip inBlock t).1.strip ∧
      (strip inBlock (t ++ w)).2 = (strip inBlock t).2 := by
  obtain ⟨code, h⟩ := exists_resumes_strip inBlock t
  have hnot : ∀ q : CodePoint, q.isBlank = false → q ∉ w := fun q hq hmem => by
    rw [hw q hmem] at hq
    cases hq
  have hw' : IsApart w := fun p hp =>
    ⟨fun h => hnot p (h ▸ rfl) (List.mem_of_head? hp), fun h => hnot p (h ▸ rfl) (List.mem_of_head? hp)⟩
  have hslash : .char '/' ∉ w := hnot _ rfl
  have hopen : ¬ ("*/" : Text) <:+: w := fun h => hslash (h.subset (by decide))
  rcases h with h | h | h <;> have hnil := h [] isApart_nil <;> rw [List.append_nil] at hnil <;>
    rw [h w hw', hnil]
  · exact ⟨rfl, rfl⟩
  · rw [stripBlock_open hopen]
    exact ⟨rfl, rfl⟩
  · rw [stripCode_of_not_mem hslash, stripCode_of_not_mem List.not_mem_nil, keepAll, keepAll,
      List.append_nil]
    exact ⟨Text.strip_append_blank hw code, rfl⟩

/-- **A comment behind code** leaves the code. -/
theorem strip_append_comment {inBlock : Bool} {t : Text} (hstate : (strip inBlock t).2 = false)
    (hcode : Lexical.code.after (strip inBlock t).1 = .code) (c : Text) :
    (strip inBlock (t ++ (" //" ++ c : Text))).1.strip = (strip inBlock t).1.strip ∧
      (strip inBlock (t ++ (" //" ++ c : Text))).2 = false := by
  obtain ⟨code, h⟩ := exists_resumes_strip inBlock t
  have hapart : IsApart (" //" ++ c : Text) := fun p hp => by cases hp; decide
  rcases h with h | h | h <;> have hnil := h [] isApart_nil <;> rw [List.append_nil] at hnil <;>
    rw [hnil] at hstate hcode <;> rw [h _ hapart, hnil]
  · exact ⟨rfl, rfl⟩
  · cases hstate
  · have hend : stripCode (Lexical.code.after code) [] = ([], false) :=
      stripCode_of_not_mem List.not_mem_nil _
    rw [hend, keepAll, List.append_nil] at hcode
    have hcomment : stripCode .code (" //" ++ c : Text) = ([.char ' '], false) := rfl
    have hspace : ∀ p ∈ [CodePoint.char ' '], p.isBlank = true := by decide
    rw [hcode, hcomment, stripCode_of_not_mem List.not_mem_nil, keepAll, keepAll, List.append_nil]
    exact ⟨Text.strip_append_blank hspace code, rfl⟩

end LvglForest.Comment
