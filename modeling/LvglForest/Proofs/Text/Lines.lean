import LvglForest.Text.Lines
import Mathlib.Data.List.Basic

/-!
# Lines put together and taken apart

Lines without line breaks, each ended by a line feed, are the lines of the text they make
(`lines_join`); parts without a separator are what the text they make is split into
(`splitOn_join`). A text that ends a line and any text after it are read one after the other
(`lines_append`).
-/

namespace LvglForest.Text

/-- No code point of a text ends a line. -/
def InLine (t : Text) : Prop := ∀ p ∈ t, p.isLineBreak = false

instance (t : Text) : Decidable (InLine t) :=
  inferInstanceAs (Decidable (∀ p ∈ t, p.isLineBreak = false))

theorem inLine_nil : InLine [] := fun _ h => nomatch h

theorem InLine.append {s t : Text} (hs : s.InLine) (ht : t.InLine) : InLine (s ++ t) :=
  fun p hp => (List.mem_append.1 hp).elim (hs p) (ht p)

theorem InLine.join {sep : Text} (hsep : sep.InLine) {ts : List Text} (h : ∀ t ∈ ts, t.InLine) :
    InLine (join sep ts) := by
  induction ts with
  | nil => exact inLine_nil
  | cons t ts ih =>
    rw [List.forall_mem_cons] at h
    cases ts with
    | nil => exact h.1
    | cons u ts => exact (h.1.append hsep).append (ih h.2)

theorem InLine.not_mem {t : Text} (h : t.InLine) {p : CodePoint} (hp : p.isLineBreak = true) :
    p ∉ t := by
  intro hmem
  rw [h p hmem] at hp
  cases hp

/-! ## Lines -/

theorem lines_cons {p : CodePoint} (h : p.isLineBreak = false) (t : Text) :
    lines (p :: t) = ontoFirst p (lines t) := by
  rw [lines, h]
  · rfl
  · intro s hr _
    subst hr
    cases h

theorem lines_of_inLine {t : Text} (h : t.InLine) (hne : t ≠ []) : lines t = [t] := by
  induction t with
  | nil => exact absurd rfl hne
  | cons p t ih =>
    have hp : p.isLineBreak = false := h p List.mem_cons_self
    rw [lines_cons hp]
    cases t with
    | nil => rfl
    | cons q t => rw [ih (fun x hx => h x (List.mem_cons_of_mem _ hx)) (List.cons_ne_nil q t)]; rfl

/-- A line ends at its line feed. -/
theorem lines_append_newline {t : Text} (h : t.InLine) (r : Text) :
    lines (t ++ .char '\n' :: r) = t :: lines r := by
  induction t with
  | nil =>
    rw [List.nil_append, lines, if_pos (by decide)]
    exact fun s hp => nomatch hp
  | cons p t ih =>
    have hp : p.isLineBreak = false := h p List.mem_cons_self
    rw [List.cons_append, lines_cons hp, ih fun x hx => h x (List.mem_cons_of_mem _ hx)]
    rfl

theorem join_cons_of_ne_nil (sep t : Text) {ts : List Text} (h : ts ≠ []) :
    join sep (t :: ts) = t ++ sep ++ join sep ts := by
  cases ts with
  | nil => exact absurd rfl h
  | cons u ts => rfl

/-- An empty part behind other parts is a separator at the end. -/
theorem join_concat_nil (sep : Text) {ts : List Text} (h : ts ≠ []) :
    join sep (ts ++ [[]]) = join sep ts ++ sep := by
  induction ts with
  | nil => exact absurd rfl h
  | cons t ts ih =>
    cases ts with
    | nil => exact List.append_nil _
    | cons u ts =>
      rw [List.cons_append, join_cons_of_ne_nil _ _ (by simp), ih (List.cons_ne_nil u ts),
        join_cons_of_ne_nil _ _ (List.cons_ne_nil u ts), List.append_assoc _ _ sep]

/-! ## Parts -/

theorem splitOn_ne_nil (sep : CodePoint) (t : Text) : splitOn sep t ≠ [] := by
  cases t with
  | nil => exact List.cons_ne_nil _ _
  | cons p t =>
    rw [splitOn]
    split
    · exact List.cons_ne_nil _ _
    · split <;> exact List.cons_ne_nil _ _

/-- The parts of a text make the text. -/
theorem join_splitOn (sep : CodePoint) (t : Text) : join [sep] (splitOn sep t) = t := by
  induction t with
  | nil => rfl
  | cons p t ih =>
    have hne := splitOn_ne_nil sep t
    rw [splitOn]
    split
    · next hp => rw [join_cons_of_ne_nil _ _ hne, ih, hp]; rfl
    · obtain ⟨part, parts, hparts⟩ := List.exists_cons_of_ne_nil hne
      rw [hparts] at ih ⊢
      rw [← ih]
      cases parts <;> rfl

theorem splitOn_of_not_mem {sep : CodePoint} {t : Text} (h : sep ∉ t) : splitOn sep t = [t] := by
  induction t with
  | nil => rfl
  | cons p t ih =>
    rw [List.mem_cons, not_or] at h
    rw [splitOn, if_neg (fun e => h.1 e.symm), ih h.2]

/-- A separator ends the parts before it. -/
theorem splitOn_append (sep : CodePoint) (t r : Text) :
    splitOn sep (t ++ sep :: r) = splitOn sep t ++ splitOn sep r := by
  induction t with
  | nil =>
    show splitOn sep (sep :: r) = [] :: splitOn sep r
    rw [splitOn, if_pos rfl]
  | cons p t ih =>
    rw [List.cons_append, splitOn, splitOn, ih]
    split
    · rfl
    · obtain ⟨part, parts, hparts⟩ := List.exists_cons_of_ne_nil (splitOn_ne_nil sep t)
      rw [hparts]
      rfl

theorem splitOn_append_sep {sep : CodePoint} {t : Text} (h : sep ∉ t) (r : Text) :
    splitOn sep (t ++ sep :: r) = t :: splitOn sep r := by
  rw [splitOn_append, splitOn_of_not_mem h, List.singleton_append]

/-- Texts put together with a separator are split one after the other. -/
theorem splitOn_join_eq_flatMap (sep : CodePoint) {ts : List Text} (hne : ts ≠ []) :
    splitOn sep (join [sep] ts) = ts.flatMap (splitOn sep) := by
  induction ts with
  | nil => exact absurd rfl hne
  | cons t ts ih =>
    cases ts with
    | nil => rw [join, List.flatMap_singleton]
    | cons u ts =>
      rw [join, List.append_assoc, List.singleton_append, splitOn_append,
        ih (List.cons_ne_nil u ts)]
      rfl

/-- A text put together with a separator is split into what it was put together from. -/
theorem splitOn_join {sep : CodePoint} {ts : List Text} (hne : ts ≠ []) (h : ∀ t ∈ ts, sep ∉ t) :
    splitOn sep (join [sep] ts) = ts := by
  rw [splitOn_join_eq_flatMap sep hne, List.flatMap_congr fun t ht => splitOn_of_not_mem (h t ht),
    List.flatMap_singleton']

theorem length_splitOn (sep : CodePoint) (t : Text) :
    (splitOn sep t).length = t.count sep + 1 := by
  induction t with
  | nil => rfl
  | cons p t ih =>
    rw [splitOn, List.count_cons]
    split
    · next hp => rw [List.length_cons, ih, if_pos (beq_iff_eq.2 hp)]
    · next hp =>
      obtain ⟨part, parts, hparts⟩ := List.exists_cons_of_ne_nil (splitOn_ne_nil sep t)
      rw [hparts] at ih ⊢
      rw [if_neg (fun h => hp (beq_iff_eq.1 h))]
      exact ih

/-! ## Texts put together -/

/-- Nothing of a text is left behind its last line break. -/
def EndsLine (t : Text) : Prop := ∀ p, t.getLast? = some p → p.isLineBreak = true

/-- A text is empty or starts with a line break. -/
def StartsBreak (t : Text) : Prop := ∀ p, t.head? = some p → p.isLineBreak = true

theorem endsLine_nil : EndsLine [] := fun _ h => nomatch h

theorem startsBreak_nil : StartsBreak [] := fun _ h => nomatch h

theorem EndsLine.of_cons {p q : CodePoint} {t : Text} (h : EndsLine (p :: q :: t)) :
    EndsLine (q :: t) :=
  fun r hr => h r (by rw [List.getLast?_cons_cons, hr])

theorem endsLine_concat (t : Text) {p : CodePoint} (hp : p.isLineBreak = true) :
    EndsLine (t ++ [p]) := by
  intro q hq
  rw [List.getLast?_concat] at hq
  cases hq
  exact hp

theorem ontoFirst_append (p : CodePoint) {ls : List Text} (h : ls ≠ []) (ms : List Text) :
    ontoFirst p (ls ++ ms) = ontoFirst p ls ++ ms := by
  cases ls with
  | nil => exact absurd rfl h
  | cons l ls => rfl

theorem lines_ne_nil {t : Text} (h : t ≠ []) : lines t ≠ [] := by
  induction t using lines.induct with
  | case1 => exact absurd rfl h
  | case2 t _ => simp [lines]
  | case3 p t hpair hp _ => simp [lines, hp]
  | case4 p t hpair hp _ =>
    rw [lines_cons (Bool.eq_false_iff.2 hp)]
    cases lines t <;> simp [ontoFirst]

theorem lines_break {p : CodePoint} (hp : p.isLineBreak = true) {t : Text}
    (hpair : ¬ (p = .char '\r' ∧ t.head? = some (.char '\n'))) : lines (p :: t) = [] :: lines t := by
  rw [lines, if_pos hp]
  intro s hr hs
  exact hpair ⟨hr, by rw [hs]; rfl⟩

/-- **The lines of two texts** stand one after the other if the first ends a line. A carriage return
and a line feed must not be torn apart. -/
theorem lines_append {u v : Text} (hu : u.EndsLine)
    (hpair : ¬ (u.getLast? = some (.char '\r') ∧ v.head? = some (.char '\n'))) :
    lines (u ++ v) = lines u ++ lines v := by
  induction u using lines.induct with
  | case1 => rfl
  | case2 t ih =>
    rw [List.cons_append, List.cons_append, lines, lines, List.cons_append]
    cases t with
    | nil => rfl
    | cons p t =>
      rw [ih hu.of_cons.of_cons]
      rwa [List.getLast?_cons_cons, List.getLast?_cons_cons] at hpair
  | case3 p t hpair' hp ih =>
    cases t with
    | nil =>
      have hpair : ¬ (p = .char '\r' ∧ v.head? = some (.char '\n')) :=
        fun ⟨hr, hv⟩ => hpair ⟨congrArg some hr, hv⟩
      rw [List.singleton_append, lines_break hp hpair, lines_break hp (by simp)]
      rfl
    | cons q t =>
      have hqr : ∀ s : Text, ¬ (p = .char '\r' ∧ (q :: s).head? = some (.char '\n')) :=
        fun s ⟨hp, hq⟩ => hpair' t hp (by rw [Option.some.inj hq])
      rw [List.getLast?_cons_cons] at hpair
      rw [List.cons_append, List.cons_append, lines_break hp (hqr _), ← List.cons_append,
        ih hu.of_cons hpair, lines_break hp (hqr t), List.cons_append]
  | case4 p t _ hp ih =>
    cases t with
    | nil => exact absurd (hu p rfl) hp
    | cons q t =>
      rw [List.getLast?_cons_cons] at hpair
      rw [List.cons_append, lines_cons (Bool.eq_false_iff.2 hp), ih hu.of_cons hpair,
        ontoFirst_append p (lines_ne_nil (List.cons_ne_nil q t)),
        lines_cons (Bool.eq_false_iff.2 hp)]

/-- A line feed ends the lines before it. -/
theorem lines_newline (s t : Text) :
    lines (s ++ .char '\n' :: t) = lines (s ++ [.char '\n']) ++ lines t := by
  have hwhole : ¬ ((s ++ [CodePoint.char '\n']).getLast? = some (.char '\r') ∧
      t.head? = some (.char '\n')) := by
    rintro ⟨h, -⟩
    rw [List.getLast?_concat] at h
    cases h
  rw [← lines_append (endsLine_concat s rfl) hwhole, List.append_assoc, List.singleton_append]

/-- The lines of texts of which each is ended by a line feed. -/
def stackedLines (ts : List Text) : List Text := ts.flatMap fun t => lines (t ++ [.char '\n'])

theorem stackedLines_append (ts us : List Text) :
    stackedLines (ts ++ us) = stackedLines ts ++ stackedLines us := List.flatMap_append

/-- Texts each ended by a line feed are read one after the other. -/
theorem lines_join_stacked (ts : List Text) : lines (join "\n" (ts ++ [[]])) = stackedLines ts := by
  induction ts with
  | nil => rfl
  | cons t ts ih =>
    have hrest : ts ++ [[]] ≠ [] := by simp
    rw [List.cons_append, join_cons_of_ne_nil _ _ hrest, List.append_assoc]
    exact (lines_newline t _).trans (congrArg _ ih)

/-- The lines of a text are those of its parts. -/
theorem stackedLines_splitOn (t : Text) :
    stackedLines (splitOn (.char '\n') t) = lines (t ++ [.char '\n']) := by
  rw [← lines_join_stacked, join_concat_nil _ (splitOn_ne_nil _ t)]
  exact congrArg (fun s => lines (s ++ [.char '\n'])) (join_splitOn _ t)

/-- Lines each ended by a line feed are read as these lines. -/
theorem lines_join {ls : List Text} (h : ∀ l ∈ ls, l.InLine) :
    lines (join "\n" (ls ++ [[]])) = ls := by
  rw [lines_join_stacked]
  induction ls with
  | nil => rfl
  | cons l ls ih =>
    rw [List.forall_mem_cons] at h
    exact congrArg₂ (· ++ ·) (lines_append_newline h.1 []) (ih h.2)

/-- A line feed at the end of a text ends its last line, or adds an empty one. -/
theorem lines_concat_newline (s : Text) :
    lines (s ++ [.char '\n']) = lines s ∨ lines (s ++ [.char '\n']) = lines s ++ [[]] := by
  induction s using lines.induct with
  | case1 => exact .inr rfl
  | case2 t ih =>
    rw [List.cons_append, List.cons_append, lines, lines, List.cons_append]
    exact ih.imp (congrArg _) (congrArg _)
  | case3 p t hpair hp ih =>
    cases t with
    | nil =>
      by_cases hr : p = .char '\r'
      · subst hr
        exact .inl rfl
      · rw [List.singleton_append, lines_break hp fun h => hr h.1, lines_break hp fun h => hr h.1]
        exact .inr rfl
    | cons q t =>
      have hwhole : ∀ s : Text, ¬ (p = .char '\r' ∧ (q :: s).head? = some (.char '\n')) :=
        fun s ⟨hp, hq⟩ => hpair t hp (by rw [Option.some.inj hq])
      rw [List.cons_append, List.cons_append, lines_break hp (hwhole _), lines_break hp (hwhole t)]
      exact ih.imp (congrArg _) (congrArg _)
  | case4 p t _ hp ih =>
    rw [List.cons_append, lines_cons (Bool.eq_false_iff.2 hp), lines_cons (Bool.eq_false_iff.2 hp)]
    cases t with
    | nil => exact .inl rfl
    | cons q t =>
      refine ih.imp (congrArg _) fun h => ?_
      rw [h, ontoFirst_append p (lines_ne_nil (List.cons_ne_nil q t))]

/-- What follows a line does not depend on the line. -/
theorem exists_lines_append {v : Text} (hv : v.StartsBreak) (hne : v ≠ []) :
    ∃ rest, ∀ l : Text, l.InLine → lines (l ++ v) = l :: rest := by
  obtain ⟨p, t, rfl⟩ := List.exists_cons_of_ne_nil hne
  obtain ⟨rest, hrest⟩ : ∃ rest, lines (p :: t) = [] :: rest := by
    by_cases hpair : p = .char '\r' ∧ t.head? = some (.char '\n')
    · obtain ⟨rfl, ht⟩ := hpair
      obtain ⟨t, rfl⟩ := List.head?_eq_some_iff.1 ht
      exact ⟨lines t, rfl⟩
    · exact ⟨lines t, lines_break (hv p rfl) hpair⟩
  refine ⟨rest, fun l hl => ?_⟩
  induction l with
  | nil => exact hrest
  | cons q l ih =>
    rw [List.cons_append, lines_cons (hl q List.mem_cons_self),
      ih fun x hx => hl x (List.mem_cons_of_mem _ hx)]
    rfl

/-- The first line of a text starts it, and all others occur in it. -/
theorem lines_eq_cons {t l : Text} {ls : List Text} (h : lines t = l :: ls) :
    l <+: t ∧ ∀ m ∈ ls, m <:+: t := by
  have hall : ∀ {t : Text} {ls : List Text},
      (∀ l ms, ls = l :: ms → l <+: t ∧ ∀ m ∈ ms, m <:+: t) → ∀ m ∈ ls, m <:+: t := by
    intro t ls h m hm
    cases ls with
    | nil => cases hm
    | cons l ms =>
      obtain ⟨hl, hms⟩ := h l ms rfl
      rcases List.mem_cons.1 hm with rfl | hm
      · exact hl.isInfix
      · exact hms m hm
  induction t using lines.induct generalizing l ls with
  | case1 => cases h
  | case2 t ih =>
    rw [lines] at h
    cases h
    exact ⟨List.nil_prefix, fun m hm =>
      (hall (fun l ms h => ih h) m hm).trans ⟨[.char '\r', .char '\n'], [], by simp⟩⟩
  | case3 p t hpair hp ih =>
    rw [lines_break hp fun h => hpair _ h.1 (List.head?_eq_some_iff.1 h.2).choose_spec] at h
    cases h
    exact ⟨List.nil_prefix, fun m hm =>
      (hall (fun l ms h => ih h) m hm).trans (List.suffix_cons p t).isInfix⟩
  | case4 p t _ hp ih =>
    rw [lines_cons (Bool.eq_false_iff.2 hp)] at h
    cases hlines : lines t with
    | nil =>
      rw [hlines] at h
      cases h
      exact ⟨⟨t, rfl⟩, fun m hm => absurd hm List.not_mem_nil⟩
    | cons l' ls' =>
      rw [hlines] at h
      cases h
      obtain ⟨hl, hls⟩ := ih hlines
      exact ⟨List.prefix_cons_inj p |>.2 hl, fun m hm => (hls m hm).trans (List.suffix_cons p t).isInfix⟩

/-- Every line of a text occurs in it. -/
theorem isInfix_of_mem_lines {t l : Text} (h : l ∈ lines t) : l <:+: t := by
  cases hlines : lines t with
  | nil =>
    rw [hlines] at h
    cases h
  | cons m ms =>
    obtain ⟨hm, hms⟩ := lines_eq_cons hlines
    rw [hlines] at h
    rcases List.mem_cons.1 h with rfl | h
    · exact hm.isInfix
    · exact hms l h

/-- No line of a text holds a line break. -/
theorem inLine_of_mem_lines {t : Text} : ∀ l ∈ lines t, l.InLine := by
  induction t using lines.induct with
  | case1 => exact fun _ hl => nomatch hl
  | case2 t ih =>
    rw [lines]
    exact List.forall_mem_cons.2 ⟨inLine_nil, ih⟩
  | case3 p t hpair hp ih =>
    rw [lines, if_pos hp]
    · exact List.forall_mem_cons.2 ⟨inLine_nil, ih⟩
    · exact hpair
  | case4 p t _ hp ih =>
    have hp : p.isLineBreak = false := Bool.eq_false_iff.2 hp
    rw [lines_cons hp]
    cases hlines : lines t with
    | nil => exact List.forall_mem_singleton.2 (List.forall_mem_singleton.2 hp)
    | cons l ls =>
      rw [hlines, List.forall_mem_cons] at ih
      exact List.forall_mem_cons.2 ⟨List.forall_mem_cons.2 ⟨hp, ih.1⟩, ih.2⟩

/-- A text is some lines that have ended and a rest without line breaks. -/
theorem exists_endsLine_append (t : Text) : ∃ u r : Text, t = u ++ r ∧ u.EndsLine ∧ r.InLine := by
  induction t with
  | nil => exact ⟨[], [], rfl, endsLine_nil, inLine_nil⟩
  | cons p t ih =>
    obtain ⟨u, r, rfl, hu, hr⟩ := ih
    cases u with
    | cons q u =>
      refine ⟨p :: q :: u, r, rfl, fun x hx => hu x ?_, hr⟩
      rwa [List.getLast?_cons_cons] at hx
    | nil =>
      by_cases hp : p.isLineBreak = true
      · exact ⟨[p], r, rfl, endsLine_concat [] hp, hr⟩
      · refine ⟨[], p :: r, rfl, endsLine_nil, fun x hx => ?_⟩
        rcases List.mem_cons.1 hx with rfl | hx
        · exact Bool.eq_false_iff.2 hp
        · exact hr x hx

end LvglForest.Text
