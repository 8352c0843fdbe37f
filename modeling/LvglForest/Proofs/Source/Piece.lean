import LvglForest.Proofs.Source.Comment

/-!
# The pieces of a line

A line is made of pieces (`Comment.IsDivided`): comments, whole literals, and the other code points
one by one. Every line can be divided into pieces, whether it starts inside or outside a block
comment (`Comment.exists_isDivided`), and its code is what is left of them: literals and code points
as they are, a space for a comment that ends, and nothing for one that goes on to the end of the line
(`Comment.strip_of_isDivided`).

A comment leaves nothing that a mark could be made of, so what is left of the pieces is a division of
the code (`Comment.IsDivided.left`). The code of a line is then its own code, and the literals in it
are those of the line (`Comment.strip_pieces`).
-/

namespace LvglForest.Comment

/-- A piece of a line. -/
inductive Piece where
  /-- A code point outside comments and literals. -/
  | point (p : CodePoint)
  /-- A literal with its quotes. One that is not closed goes on to the end of the line. -/
  | literal (t : Text)
  /-- A block comment that ends in the line. -/
  | block (t : Text)
  /-- A line comment, or a block comment that does not end in the line. -/
  | rest (t : Text)

namespace Piece

/-- What a piece takes of the line. -/
def text : Piece → Text
  | point p => [p]
  | literal t | block t | rest t => t

/-- The pieces that are left of a piece when comments are taken out. -/
def left : Piece → List Piece
  | block _ => [point (.char ' ')]
  | rest _ => []
  | piece => [piece]

end Piece

/-- The text that pieces make up. -/
def textOf (pieces : List Piece) : Text := pieces.flatMap Piece.text

/-- The mark that opens a block comment. A line that starts inside one does not show it. -/
def opening (inBlock : Bool) : Text := if inBlock then [] else "/*"

/-- The division of a line that starts inside or outside a block comment, and whether a block comment
goes on after it. A block comment ends at its first end, a literal at its first quote that no
backslash takes out of account, and a slash alone is one that no mark begins with. -/
inductive IsDivided : Bool → Text → List Piece → Bool → Prop
  | nil : IsDivided false [] [] false
  | point {p : CodePoint} {t : Text} {pieces : List Piece} {goesOn : Bool}
      (hquote : Lexical.isQuote p = false) (hmark : p = .char '/' → IsApart t)
      (h : IsDivided false t pieces goesOn) : IsDivided false (p :: t) (.point p :: pieces) goesOn
  | literal {quote : CodePoint} {b t : Text} {pieces : List Piece} {goesOn : Bool}
      (hquote : Lexical.isQuote quote = true) (hb : Literal.IsBody quote b)
      (h : IsDivided false t pieces goesOn) :
      IsDivided false (quote :: b ++ quote :: t) (.literal (quote :: b ++ [quote]) :: pieces) goesOn
  | unclosed {quote : CodePoint} {b x : Text} (hquote : Lexical.isQuote quote = true)
      (hb : Literal.IsBody quote b) (hx : x <+: b) :
      IsDivided false (quote :: x) [.literal (quote :: x)] false
  | line (c : Text) : IsDivided false ("//" ++ c) [.rest ("//" ++ c)] false
  | block (inBlock : Bool) {c t : Text} {pieces : List Piece} {goesOn : Bool}
      (hc : ¬ ("*/" : Text) <:+: c) (h : IsDivided false t pieces goesOn) :
      IsDivided inBlock (opening inBlock ++ (c ++ ("*/" ++ t)))
        (.block (opening inBlock ++ (c ++ "*/")) :: pieces) goesOn
  | unended (inBlock : Bool) {c : Text} (hc : ¬ ("*/" : Text) <:+: c) :
      IsDivided inBlock (opening inBlock ++ c) [.rest (opening inBlock ++ c)] true

/-- The pieces of a line make it up. -/
theorem IsDivided.textOf_eq {inBlock goesOn : Bool} {line : Text} {pieces : List Piece}
    (h : IsDivided inBlock line pieces goesOn) : textOf pieces = line := by
  unfold textOf
  induction h with
  | nil => rfl
  | point _ _ _ ih => simp [Piece.text, ih]
  | literal _ _ _ ih => simp [Piece.text, ih]
  | unclosed _ _ _ => simp [Piece.text]
  | line c => simp [Piece.text]
  | block _ _ _ ih => simp [Piece.text, ih]
  | unended _ _ => simp [Piece.text]

/-! ## Every line has pieces -/

/-- A text after a quote holds the end of the literal, or is a part of its inside. -/
theorem exists_isBody (quote : CodePoint) (t : Text) :
    (∃ b r, Literal.IsBody quote b ∧ t = b ++ quote :: r) ∨
      ∃ b, Literal.IsBody quote b ∧ t <+: b := by
  -- A backslash takes two code points at once, so the induction is on the length.
  induction hn : t.length using Nat.strong_induction_on generalizing t with
  | _ n ih =>
    cases t with
    | nil => exact .inr ⟨[], .nil, List.prefix_rfl⟩
    | cons p t =>
      by_cases hescape : p = .char '\\'
      · subst hescape
        cases t with
        | nil => exact .inr ⟨[.char '\\', .char ' '], .escape _ .nil, ⟨[.char ' '], rfl⟩⟩
        | cons q t =>
          obtain ⟨b, r, hb, rfl⟩ | ⟨b, hb, hprefix⟩ := ih t.length
            (by rw [← hn, List.length_cons, List.length_cons]; omega) t rfl
          · exact .inl ⟨_, r, .escape q hb, rfl⟩
          · refine .inr ⟨_, .escape q hb, ?_⟩
            rwa [List.prefix_cons_inj, List.prefix_cons_inj]
      · by_cases hquote : p = quote
        · subst hquote
          exact .inl ⟨[], t, .nil, rfl⟩
        · obtain ⟨b, r, hb, rfl⟩ | ⟨b, hb, hprefix⟩ := ih t.length
            (by rw [← hn, List.length_cons]; omega) t rfl
          · exact .inl ⟨_, r, .plain hquote hescape hb, rfl⟩
          · refine .inr ⟨_, .plain hquote hescape hb, ?_⟩
            rwa [List.prefix_cons_inj]

/-- A text ends a block comment at its first end, or not at all. -/
theorem exists_end (t : Text) :
    (∃ c r, ¬ ("*/" : Text) <:+: c ∧ t = c ++ ("*/" ++ r)) ∨ ¬ ("*/" : Text) <:+: t := by
  induction t with
  | nil => exact .inr (by decide)
  | cons p t ih =>
    by_cases hend : ("*/" : Text) <+: p :: t
    · obtain ⟨r, hr⟩ := hend
      exact .inl ⟨[], r, by decide, hr.symm⟩
    · obtain ⟨c, r, hc, rfl⟩ | ht := ih
      · by_cases hfirst : ("*/" : Text) <+: p :: c
        · obtain ⟨s, hs⟩ := hfirst
          exact absurd ⟨s ++ ("*/" ++ r), by rw [← List.append_assoc, hs]; rfl⟩ hend
        · refine .inl ⟨p :: c, r, ?_, rfl⟩
          rw [List.infix_cons_iff]
          exact not_or.2 ⟨hfirst, hc⟩
      · right
        rw [List.infix_cons_iff]
        exact not_or.2 ⟨hend, ht⟩

/-- **Every line can be divided** into pieces. -/
theorem exists_isDivided (inBlock : Bool) (line : Text) :
    ∃ pieces goesOn, IsDivided inBlock line pieces goesOn := by
  induction hn : line.length using Nat.strong_induction_on generalizing inBlock line with
  | _ n ih =>
    -- Inside a comment the first end decides, whether or not the line shows the opening mark.
    have hinside (inBlock : Bool) (t : Text) (hline : line = opening inBlock ++ t) :
        ∃ pieces goesOn, IsDivided inBlock line pieces goesOn := by
      obtain ⟨c, r, hc, rfl⟩ | ht := exists_end t
      · have hr : r.length < n := by simp [← hn, hline, Text.ofString]; omega
        obtain ⟨pieces, goesOn, hpieces⟩ := ih r.length hr false r rfl
        rw [hline]
        exact ⟨_, goesOn, .block inBlock hc hpieces⟩
      · rw [hline]
        exact ⟨_, true, .unended inBlock ht⟩
    cases inBlock with
    | true => exact hinside true line rfl
    | false =>
      cases line with
      | nil => exact ⟨[], false, .nil⟩
      | cons p t =>
        have hrest (r : Text) (hr : r.length ≤ t.length) :
            ∃ pieces goesOn, IsDivided false r pieces goesOn :=
          ih r.length (by simp [← hn]; omega) false r rfl
        by_cases hquote : Lexical.isQuote p = true
        · obtain ⟨b, r, hb, rfl⟩ | ⟨b, hb, hprefix⟩ := exists_isBody p t
          · obtain ⟨pieces, goesOn, hpieces⟩ := hrest r (by simp; omega)
            exact ⟨_, goesOn, .literal hquote hb hpieces⟩
          · exact ⟨_, false, .unclosed hquote hb hprefix⟩
        · by_cases hmark : p = .char '/' ∧ ¬ IsApart t
          · obtain ⟨rfl, hmark⟩ := hmark
            obtain ⟨q, r, rfl, hq⟩ : ∃ q r, t = q :: r ∧ (q = .char '/' ∨ q = .char '*') := by
              cases t with
              | nil => exact absurd isApart_nil hmark
              | cons q r =>
                refine ⟨q, r, rfl, Classical.byContradiction fun hq => hmark ?_⟩
                intro p hp
                cases hp
                exact not_or.1 hq
            rcases hq with rfl | rfl
            · exact ⟨_, false, .line r⟩
            · exact hinside false r rfl
          · obtain ⟨pieces, goesOn, hpieces⟩ := hrest t le_rfl
            refine ⟨_, goesOn, .point (by simpa using hquote) (fun hp => ?_) hpieces⟩
            exact Classical.byContradiction fun happart => hmark ⟨hp, happart⟩

/-! ## What is left -/

theorem stripCode_point {p : CodePoint} {t : Text} (hquote : Lexical.isQuote p = false)
    (hmark : p = .char '/' → IsApart t) :
    stripCode .code (p :: t) = keep p (stripCode .code t) := by
  have hnext : Lexical.code.next p = .code := by
    rw [Lexical.next, hquote, if_neg Bool.false_ne_true]
  rw [stripCode, hnext]
  · rintro r - hp rfl
    exact (hmark hp _ rfl).1 rfl
  · rintro r - hp rfl
    exact (hmark hp _ rfl).2 rfl

theorem ne_of_isQuote {quote p : CodePoint} (hquote : Lexical.isQuote quote = true)
    (hp : Lexical.isQuote p = false) : quote ≠ p := by
  rintro rfl
  rw [hquote] at hp
  cases hp

theorem stripCode_quote {quote : CodePoint} (hquote : Lexical.isQuote quote = true) (t : Text) :
    stripCode .code (quote :: t) = keep quote (stripCode (.literal quote) t) := by
  rw [stripCode_cons (ne_of_isQuote hquote rfl), Lexical.next, hquote, if_pos rfl]

/-- Behind its opening mark a block comment is read alike in all lines. -/
theorem strip_opening (inBlock : Bool) (t : Text) :
    strip inBlock (opening inBlock ++ t) = stripBlock t := by
  cases inBlock with
  | true => rfl
  | false => exact stripCode.eq_3 t

/-- **The code of a line** is what is left of its pieces. -/
theorem strip_of_isDivided {inBlock goesOn : Bool} {line : Text} {pieces : List Piece}
    (h : IsDivided inBlock line pieces goesOn) :
    strip inBlock line = (textOf (pieces.flatMap Piece.left), goesOn) := by
  induction h with
  | nil => rfl
  | point hquote hmark _ ih =>
    rw [strip, if_neg Bool.false_ne_true] at ih ⊢
    rw [stripCode_point hquote hmark, ih]
    rfl
  | @literal quote b t pieces goesOn hquote hb _ ih =>
    rw [strip, if_neg Bool.false_ne_true] at ih ⊢
    rw [List.cons_append, stripCode_quote hquote, stripCode_body hb (ne_of_isQuote hquote rfl), ih]
    simp [keep, keepAll, textOf, Piece.left, Piece.text]
  | unclosed hquote hb hx =>
    rw [strip, if_neg Bool.false_ne_true, stripCode_quote hquote, stripCode_unclosed hb hx]
    simp [keep, textOf, Piece.left, Piece.text]
  | line c => exact stripCode.eq_2 c
  | block inBlock hc _ ih =>
    rw [strip, if_neg Bool.false_ne_true] at ih
    rw [strip_opening, stripBlock_close hc, ih]
    rfl
  | unended inBlock hc =>
    rw [strip_opening, stripBlock_open hc]
    rfl

/-- Comments that are taken out leave nothing that completes a mark. -/
theorem IsDivided.isApart_left {t : Text} {pieces : List Piece} {goesOn : Bool}
    (h : IsDivided false t pieces goesOn) (ht : IsApart t) :
    IsApart (textOf (pieces.flatMap Piece.left)) := by
  cases h with
  | nil => exact isApart_nil
  | point _ _ _ => exact fun q hq => ht q hq
  | literal _ _ _ => exact fun q hq => ht q hq
  | unclosed _ _ _ => exact fun q hq => ht q hq
  | line c => exact isApart_nil
  | block _ _ _ =>
    intro q hq
    cases hq
    decide
  | unended _ _ => exact isApart_nil

/-- **What is left of the pieces** is a division of the code. -/
theorem IsDivided.left {inBlock goesOn : Bool} {line : Text} {pieces : List Piece}
    (h : IsDivided inBlock line pieces goesOn) :
    IsDivided false (textOf (pieces.flatMap Piece.left)) (pieces.flatMap Piece.left) false := by
  induction h with
  | nil => exact .nil
  | point hquote hmark h ih => exact .point hquote (fun hp => h.isApart_left (hmark hp)) ih
  | @literal quote b t pieces goesOn hquote hb _ ih =>
    have htext : textOf ((Piece.literal (quote :: b ++ [quote]) :: pieces).flatMap Piece.left) =
        quote :: b ++ quote :: textOf (pieces.flatMap Piece.left) := by
      simp [textOf, Piece.left, Piece.text]
    rw [htext]
    exact .literal hquote hb ih
  | @unclosed quote b x hquote hb hx =>
    have htext : textOf ([Piece.literal (quote :: x)].flatMap Piece.left) = quote :: x := by
      simp [textOf, Piece.left, Piece.text]
    rw [htext]
    exact .unclosed hquote hb hx
  | line c => exact .nil
  | block inBlock _ _ ih => exact .point rfl (fun hp => nomatch hp) ih
  | unended inBlock _ => exact .nil

/-- A piece is somewhere in the text that pieces make up. -/
theorem text_infix_textOf {piece : Piece} {pieces : List Piece} (h : piece ∈ pieces) :
    piece.text <:+: textOf pieces := by
  obtain ⟨before, after, rfl⟩ := List.append_of_mem h
  exact ⟨textOf before, textOf after, by simp [textOf]⟩

/-- **Taking out comments once takes out all of them, and no literal is touched.** The code of a line
has no comment that could be taken out. However the line is divided into pieces, the code is what is
left of them and is divided in the same way, so each literal of the line stands in the code as it
is. -/
theorem strip_pieces (inBlock : Bool) (line : Text) :
    strip false (strip inBlock line).1 = ((strip inBlock line).1, false) ∧
      (∃ pieces goesOn, IsDivided inBlock line pieces goesOn) ∧
      ∀ pieces goesOn, IsDivided inBlock line pieces goesOn →
        strip inBlock line = (textOf (pieces.flatMap Piece.left), goesOn) ∧
          IsDivided false (strip inBlock line).1 (pieces.flatMap Piece.left) false ∧
          ∀ t, .literal t ∈ pieces → t <:+: (strip inBlock line).1 := by
  have hpieces {pieces : List Piece} {goesOn : Bool} (h : IsDivided inBlock line pieces goesOn) :
      IsDivided false (strip inBlock line).1 (pieces.flatMap Piece.left) false := by
    rw [strip_of_isDivided h]
    exact h.left
  obtain ⟨pieces, goesOn, h⟩ := exists_isDivided inBlock line
  refine ⟨?_, ⟨pieces, goesOn, h⟩, ?_⟩
  · -- What is left of what is left is the same, so the code is its own code.
    have hagain := strip_of_isDivided (hpieces h)
    rw [strip_of_isDivided h] at hagain ⊢
    rw [hagain]
    refine congrArg (·, false) (congrArg textOf ?_)
    rw [List.flatMap_assoc]
    refine List.flatMap_congr fun piece _ => ?_
    cases piece <;> rfl
  · intro pieces goesOn h
    refine ⟨strip_of_isDivided h, hpieces h, fun t ht => ?_⟩
    have hleft : Piece.literal t ∈ pieces.flatMap Piece.left :=
      List.mem_flatMap.2 ⟨.literal t, ht, List.mem_cons_self⟩
    rw [strip_of_isDivided h]
    exact text_infix_textOf hleft

/-- A text with comment marks in it, between two comments, in a line that starts inside a block
comment. -/
theorem strip_pieces_marks :
    ("\"/*\"" : Text) <:+: (strip true "b */ t(\"/*\"); // c").1 := by
  have hblock : IsDivided true "b */ t(\"/*\"); // c"
      [.block "b */", .point (.char ' '), .point (.char 't'), .point (.char '('),
        .literal "\"/*\"", .point (.char ')'), .point (.char ';'), .point (.char ' '),
        .rest "// c"] false := by
    have hquote : Literal.IsBody (.char '"') "/*" :=
      .plain (by decide) (by decide) (.plain (by decide) (by decide) .nil)
    refine .block true (c := "b ") (by decide) ?_
    refine .point rfl nofun (.point rfl nofun (.point rfl nofun ?_))
    refine .literal rfl hquote ?_
    refine .point rfl nofun (.point rfl nofun (.point rfl nofun ?_))
    exact .line " c"
  exact ((strip_pieces true "b */ t(\"/*\"); // c").2.2 _ _ hblock).2.2 _ (by simp)

end LvglForest.Comment
