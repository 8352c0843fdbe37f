import LvglForest.Proofs.Fact.Call
import LvglForest.Proofs.Fact.Extraction

/-!
# Comments say nothing

The lines of a source are read one after the other, and each passes on to the next whether a block
comment goes on (`Extraction.factsFrom`, `Extraction.openAfter`). The lines of a comment give no
facts and leave off where they began (`Extraction.silent_block`, `Extraction.silent_line`), and a
comment behind the code of a line changes nothing about the line (`Extraction.strip_comment`). So
what is commented out contributes nothing to the facts of a source (`Extraction.facts_commented`).
-/

namespace LvglForest

/-- The fact as it is said some lines further down. -/
def Fact.shift (n : Nat) (f : Fact) : Fact :=
  match f.line with
  | .integer line => { f with line := .integer (line + n) }
  | _ => f

namespace Extraction

/-! ## Lines one after the other -/

/-- The facts of lines that are numbered from a given number on. The first one starts inside or
outside a block comment. -/
def factsFrom (registry : Registry) : Bool → Nat → List Text → List Fact
  | _, _, [] => []
  | inBlock, number, line :: lines =>
    let stripped := Comment.strip inBlock (trim line)
    factsOf registry stripped.1.strip number ++
      factsFrom registry stripped.2 (number + 1) lines

/-- Whether a block comment goes on after lines. -/
def openAfter : Bool → List Text → Bool
  | inBlock, [] => inBlock
  | inBlock, line :: lines => openAfter (Comment.strip inBlock (trim line)).2 lines

/-- A source ends inside a block comment. -/
def EndsOpen (source : Text) : Prop := openAfter false source.lines = true

instance (source : Text) : Decidable (EndsOpen source) :=
  inferInstanceAs (Decidable (openAfter false source.lines = true))

theorem facts_eq_factsFrom (registry : Registry) (source : Text) :
    facts registry source = factsFrom registry false 1 source.lines := by
  rw [facts, events, codeLines]
  generalize false = inBlock, 1 = number
  induction source.lines generalizing inBlock number with
  | nil => rfl
  | cons line lines ih =>
    rw [List.map_cons, Comment.stripLines, factsFrom]
    simp only [List.zipIdx_cons, List.map_cons, List.filter_cons, factsOf]
    rw [← ih]
    split
    · rw [List.flatMap_cons, List.filterMap_append]
      rfl
    · rfl

variable {registry : Registry} {inBlock : Bool}

theorem factsFrom_append (number : Nat) (ls ms : List Text) :
    factsFrom registry inBlock number (ls ++ ms) = factsFrom registry inBlock number ls ++
      factsFrom registry (openAfter inBlock ls) (number + ls.length) ms := by
  induction ls generalizing inBlock number with
  | nil => rfl
  | cons line ls ih =>
    rw [List.cons_append, factsFrom, factsFrom, ih, openAfter, List.append_assoc, List.length_cons,
      Nat.add_assoc, Nat.add_comm 1]

theorem openAfter_append (ls ms : List Text) :
    openAfter inBlock (ls ++ ms) = openAfter (openAfter inBlock ls) ms := by
  induction ls generalizing inBlock with
  | nil => rfl
  | cons line ls ih => exact ih

/-! ## Lines further down -/

end Extraction

namespace Recognizer

/-- A recognizer makes no more of the number of a line than to note it. -/
def IsNumbering (r : Recognizer) : Prop :=
  ∀ (line : Text) (number : Int) (n : Nat),
    r.find? line (number + n) = (r.find? line number).map (Fact.shift n)

theorem isNumbering_ofCall (name : Except Fault Text) (pattern : CallPattern)
    (read : Call → Except Fault (Option (Text × Assertion)))
    (remarks : Text → Int → List Text) :
    IsNumbering { name := name, run := ofCall pattern read, remarks := remarks } := by
  intro line number n
  rw [find?, find?, toOption_ofCall, toOption_ofCall, Option.map_map]
  rfl

theorem isNumbering_declaration : declaration.IsNumbering := by
  intro line number n
  show (declared? line).map _ = ((declared? line).map _).map _
  rw [Option.map_map]
  rfl

end Recognizer

namespace Registry

/-- All recognizers of a registry just note the number of a line. -/
def IsNumbering (registry : Registry) : Prop :=
  ∀ category, ∀ r ∈ registry.recognizers category, r.IsNumbering

theorem isNumbering_standard : standard.IsNumbering := by
  intro category r hr
  cases category <;> simp only [standard, List.mem_cons, List.not_mem_nil, or_false] at hr
  case declaration => exact hr ▸ Recognizer.isNumbering_declaration
  case creation => exact hr ▸ Recognizer.isNumbering_ofCall _ _ _ _
  case property => obtain rfl | rfl | rfl | rfl := hr <;> exact Recognizer.isNumbering_ofCall _ _ _ _
  case style => obtain rfl | rfl := hr <;> exact Recognizer.isNumbering_ofCall _ _ _ _
  case layout => obtain rfl | rfl | rfl := hr <;> exact Recognizer.isNumbering_ofCall _ _ _ _

theorem lineFacts_shift {registry : Registry} (h : registry.IsNumbering) (line : Text)
    (number : Int) (n : Nat) :
    registry.lineFacts line (number + n) = (registry.lineFacts line number).map (Fact.shift n) := by
  have hfirst : ∀ rs : List Recognizer, (∀ r ∈ rs, r.IsNumbering) →
      Recognizer.findFirst? rs line (number + n) =
        (Recognizer.findFirst? rs line number).map (Fact.shift n) := by
    intro rs hrs
    induction rs with
    | nil => rfl
    | cons r rs ih =>
      rw [List.forall_mem_cons] at hrs
      rw [Recognizer.findFirst?_cons, Recognizer.findFirst?_cons, hrs.1, ih hrs.2]
      cases r.find? line number <;> rfl
  rw [lineFacts, lineFacts, lineEvents, lineEvents]
  induction Category.all with
  | nil => rfl
  | cons category categories ih =>
    rw [List.flatMap_cons, List.flatMap_cons, List.filterMap_append, List.filterMap_append, ih,
      fact?_tryInTurn, fact?_tryInTurn, hfirst _ (h category), List.map_append, Option.toList_map]

end Registry

namespace Extraction

/-- **Facts move with their lines.** -/
theorem factsFrom_shift {registry : Registry} (h : registry.IsNumbering) (inBlock : Bool)
    (number n : Nat) (ls : List Text) : factsFrom registry inBlock (number + n) ls =
      (factsFrom registry inBlock number ls).map (Fact.shift n) := by
  induction ls generalizing inBlock number with
  | nil => rfl
  | cons line ls ih =>
    rw [factsFrom, factsFrom, List.map_append, ← ih, Nat.add_right_comm, Int.natCast_add]
    congr 1
    rw [factsOf, factsOf]
    split
    · exact Registry.lineFacts_shift h _ _ n
    · rfl

/-! ## Lines that say nothing -/

/-- Lines without facts that start inside or outside a block comment, and end inside or outside
one. -/
structure Silent (inBlock : Bool) (ls : List Text) (after : Bool) : Prop where
  facts : ∀ registry number, factsFrom registry inBlock number ls = []
  state : openAfter inBlock ls = after

namespace Silent

theorem nil (inBlock : Bool) : Silent inBlock [] inBlock := ⟨fun _ _ => rfl, rfl⟩

theorem cons {inBlock inBlock' after : Bool} {line code : Text} {ls : List Text}
    (hline : Comment.strip inBlock (trim line) = (code, inBlock')) (hcode : code.strip = [])
    (h : Silent inBlock' ls after) : Silent inBlock (line :: ls) after where
  facts registry number := by
    rw [factsFrom, hline, h.facts, List.append_nil, factsOf, hcode, if_neg (by decide)]
  state := by
    rw [openAfter, hline]
    exact h.state

theorem append {inBlock inBlock' after : Bool} {ls ms : List Text} (h : Silent inBlock ls inBlock')
    (h' : Silent inBlock' ms after) : Silent inBlock (ls ++ ms) after where
  facts registry number := by rw [factsFrom_append, h.facts, h.state, h'.facts]; rfl
  state := by rw [openAfter_append, h.state, h'.state]

end Silent

/-- A text without a byte order mark at its start. -/
def unmark : Text → Text
  | .char '\uFEFF' :: t => t
  | t => t

theorem unmark_cons {p : CodePoint} (hp : p ≠ .char '\uFEFF') (t : Text) :
    unmark (p :: t) = p :: t := by
  rw [unmark]
  intro s h
  exact hp (List.cons.inj h).1

theorem unmark_suffix (t : Text) : unmark t <:+ t := by
  unfold unmark
  split
  · exact List.suffix_cons _ _
  · exact List.suffix_refl _

theorem unmark_append {t : Text} (ht : t ≠ []) (u : Text) : unmark (t ++ u) = unmark t ++ u := by
  obtain ⟨p, t, rfl⟩ := List.exists_cons_of_ne_nil ht
  by_cases hp : p = .char '\uFEFF'
  · subst hp
    rfl
  · rw [List.cons_append, unmark_cons hp, unmark_cons hp, List.cons_append]

/-- A line is trimmed at its start and then at its end. -/
theorem trim_eq (line : Text) : trim line = (unmark line.stripStart).stripEnd := by
  show unmark line.stripStart.stripEnd = _
  cases hstart : line.stripStart with
  | nil => rfl
  | cons p t =>
    have hp : p.isBlank = false := Text.isBlank_of_head?_stripStart (by rw [hstart]; rfl)
    rw [Text.stripEnd_cons hp]
    by_cases hmark : p = .char '\uFEFF'
    · subst hmark
      rfl
    · rw [unmark_cons hmark, unmark_cons hmark, Text.stripEnd_cons hp]

/-- A line that starts with a word has nothing before it. -/
theorem trim_of_head? {t : Text} {p : CodePoint} (hhead : t.head? = some p)
    (hp : p.isWord = true) : trim t = t.stripEnd := by
  obtain ⟨u, rfl⟩ := List.head?_eq_some_iff.1 hhead
  have hstart : Text.stripStart (p :: u) = p :: u := by
    refine Text.stripStart_of_head fun q hq => ?_
    cases hq
    exact CodePoint.isBlank_of_isWord hp
  rw [trim_eq, hstart, unmark_cons (CodePoint.ne_mark_of_isWord hp)]

theorem trim_isInfix (line : Text) : trim line <:+: line := by
  obtain ⟨w, hw, -⟩ := Text.exists_eq_stripEnd_append (unmark line.stripStart)
  have hsuffix : unmark line.stripStart <:+ line :=
    (unmark_suffix _).trans (List.dropWhile_suffix _)
  rw [trim_eq]
  refine List.IsInfix.trans ?_ hsuffix.isInfix
  exact (show _ <+: unmark line.stripStart from ⟨w, hw.symm⟩).isInfix

/-- What is behind a line that is not blank is trimmed at its end only. -/
theorem trim_append {line : Text} (hline : line.stripStart ≠ []) (u : Text) :
    trim (line ++ u) = (unmark line.stripStart ++ u).stripEnd := by
  have hstart : (line ++ u).stripStart = line.stripStart ++ u := by
    rw [Text.stripStart, List.dropWhile_append, if_neg (by simpa [Text.stripStart] using hline)]
    rfl
  rw [trim_eq, hstart, unmark_append hline]

/-! ## Lines of comments -/

/-- A mark at the start of a line is no blank. -/
theorem trim_mark {p : CodePoint} (hp : p.isBlank = false) (hmark : p ≠ .char '\uFEFF')
    (t : Text) : trim (p :: t) = p :: t.stripEnd := by
  have hstart : Text.stripStart (p :: t) = p :: t :=
    Text.stripStart_of_head fun q hq => by cases hq; exact hp
  rw [trim_eq, hstart, unmark_cons hmark, Text.stripEnd_cons hp]

/-- Lines inside a block comment. -/
theorem silent_inside {ls : List Text} (hls : ∀ l ∈ ls, ¬ ("*/" : Text) <:+: l) :
    Silent true ls true := by
  induction ls with
  | nil => exact .nil true
  | cons l ls ih =>
    rw [List.forall_mem_cons] at hls
    have hstrip : Comment.strip true (trim l) = ([], true) :=
      Comment.stripBlock_open fun h => hls.1 (h.trans (trim_isInfix l))
    exact .cons hstrip rfl (ih hls.2)

/-- The first line of a block comment that goes on. -/
theorem silent_open {l : Text} (hl : ¬ ("*/" : Text) <:+: l) :
    Silent false [.char '/' :: .char '*' :: l] true := by
  have htrim : trim (.char '/' :: .char '*' :: l) = .char '/' :: .char '*' :: l.stripEnd := by
    rw [trim_mark rfl (by decide), Text.stripEnd_cons rfl]
  have hprefix : l.stripEnd <+: l := by
    obtain ⟨w, hw, -⟩ := Text.exists_eq_stripEnd_append l
    exact ⟨w, hw.symm⟩
  have hstrip : Comment.strip false (trim (.char '/' :: .char '*' :: l)) = ([], true) := by
    rw [htrim]
    exact Comment.stripBlock_open fun h => hl (h.trans hprefix.isInfix)
  exact .cons hstrip rfl (.nil true)

/-- The last line of a block comment that has gone on. -/
theorem silent_close {l : Text} (hl : ¬ ("*/" : Text) <:+: l) :
    Silent true [l ++ ("*/" : Text)] false := by
  obtain ⟨l', hl', htrim⟩ : ∃ l', l' <:+: l ∧ trim (l ++ ("*/" : Text)) = l' ++ ("*/" : Text) := by
    by_cases hstart : l.stripStart = []
    · refine ⟨[], List.nil_infix, ?_⟩
      rw [trim_blank_append (List.dropWhile_eq_nil_iff.1 hstart)]
      rfl
    · refine ⟨unmark l.stripStart, ?_, ?_⟩
      · exact ((unmark_suffix _).trans (List.dropWhile_suffix _)).isInfix
      · rw [trim_append hstart, Text.stripEnd_append (by decide) (by decide)]
  have hstrip : Comment.strip true (trim (l ++ ("*/" : Text))) = ([.char ' '], false) := by
    have hclose := Comment.stripBlock_close (fun h => hl (h.trans hl')) []
    rw [List.append_nil] at hclose
    rw [htrim]
    exact hclose
  exact .cons hstrip rfl (.nil false)

/-- A block comment in a single line. -/
theorem silent_single {c : Text} (hc : ¬ ("*/" : Text) <:+: c) :
    Silent false [.char '/' :: .char '*' :: (c ++ ("*/" : Text))] false := by
  have hstrip : Comment.strip false (trim (.char '/' :: .char '*' :: (c ++ ("*/" : Text)))) =
      ([.char ' '], false) := by
    have hclose := Comment.stripBlock_close hc []
    rw [List.append_nil] at hclose
    rw [trim_mark rfl (by decide), Text.stripEnd_cons rfl,
      Text.stripEnd_append (by decide) (by decide)]
    exact hclose
  exact .cons hstrip rfl (.nil false)

/-- **The lines of a block comment say nothing**, and it ends with them. -/
theorem silent_block {c : Text} (hc : ¬ ("*/" : Text) <:+: c) :
    Silent false (Text.lines (("/*" ++ c ++ "*/" : Text) ++ [.char '\n'])) false := by
  obtain ⟨u, r, rfl, hu, hr⟩ := Text.exists_endsLine_append c
  have hclosing : (r ++ ("*/" : Text)).InLine := hr.append (by decide)
  have htext : ("/*" ++ (u ++ r) ++ "*/" : Text) ++ [.char '\n'] =
      .char '/' :: .char '*' :: u ++ (r ++ ("*/" : Text) ++ .char '\n' :: []) := by
    simp [Text.ofString]
  have hr' : ¬ ("*/" : Text) <:+: r := fun h => hc (h.trans (List.suffix_append u r).isInfix)
  rw [htext]
  cases hlines : Text.lines u with
  | nil =>
    have hu : u = [] := by
      by_contra hne
      exact Text.lines_ne_nil hne hlines
    subst hu
    have hline : Text.InLine (.char '/' :: .char '*' :: (r ++ ("*/" : Text))) := by
      rw [Text.InLine, List.forall_mem_cons, List.forall_mem_cons]
      exact ⟨rfl, rfl, hclosing⟩
    have hone := Text.lines_append_newline hline []
    rw [List.cons_append, List.cons_append] at hone
    rw [List.cons_append, List.cons_append, List.nil_append, hone]
    exact silent_single hr'
  | cons l ls =>
    obtain ⟨hl, hls⟩ := Text.lines_eq_cons hlines
    have hu' : ¬ ("*/" : Text) <:+: u := fun h => hc (h.trans (List.prefix_append u r).isInfix)
    have hfirst : Text.lines (.char '/' :: .char '*' :: u) = (.char '/' :: .char '*' :: l) :: ls := by
      rw [Text.lines_cons rfl, Text.lines_cons rfl, hlines]
      rfl
    have hends : Text.EndsLine (.char '/' :: .char '*' :: u) := by
      obtain ⟨p, u, rfl⟩ := List.exists_cons_of_ne_nil (l := u) (by rintro rfl; cases hlines)
      intro q hq
      rw [List.getLast?_cons_cons, List.getLast?_cons_cons] at hq
      exact hu q hq
    have hwhole : (r ++ ("*/" : Text) ++ CodePoint.char '\n' :: []).head? ≠
        some (.char '\n') := by
      intro h
      rw [List.head?_append_of_ne_nil _ (by simp [Text.ofString])] at h
      exact hclosing.not_mem rfl (List.mem_of_head? h)
    rw [Text.lines_append hends fun h => hwhole h.2, hfirst, Text.lines_append_newline hclosing]
    exact ((silent_open fun h => hu' (h.trans hl.isInfix)).append
      (silent_inside fun m hm h => hu' (h.trans (hls m hm)))).append (silent_close hr')

/-- **A line comment says nothing.** -/
theorem silent_line {c : Text} (hc : c.InLine) :
    Silent false (Text.lines (("//" ++ c : Text) ++ [.char '\n'])) false := by
  have hline : Text.InLine (.char '/' :: .char '/' :: c) := by
    rw [Text.InLine, List.forall_mem_cons, List.forall_mem_cons]
    exact ⟨rfl, rfl, hc⟩
  have hone : Text.lines (("//" ++ c : Text) ++ [.char '\n']) = [.char '/' :: .char '/' :: c] :=
    Text.lines_append_newline hline []
  have hstrip : Comment.strip false (trim (.char '/' :: .char '/' :: c)) = ([], false) := by
    rw [trim_mark rfl (by decide), Text.stripEnd_cons rfl]
    rfl
  rw [hone]
  exact .cons hstrip rfl (.nil false)

/-! ## Comments between lines -/

theorem silent_empty (inBlock : Bool) : Silent inBlock [[]] inBlock := by
  have hstrip : Comment.strip inBlock (trim []) = ([], inBlock) := by cases inBlock <;> rfl
  exact .cons hstrip rfl (.nil inBlock)

theorem factsFrom_concat_newline (registry : Registry) (s : Text) :
    factsFrom registry false 1 (Text.lines (s ++ [.char '\n'])) = facts registry s ∧
      openAfter false (Text.lines (s ++ [.char '\n'])) = openAfter false s.lines := by
  rcases Text.lines_concat_newline s with h | h
  · rw [h, facts_eq_factsFrom]
    exact ⟨rfl, rfl⟩
  · rw [h, facts_eq_factsFrom, factsFrom_append, openAfter_append, (silent_empty _).facts,
      List.append_nil]
    exact ⟨rfl, (silent_empty _).state⟩

/-- **The facts of two sources** stand one after the other, those of the second one further down. -/
theorem facts_append {registry : Registry} (hnumbering : registry.IsNumbering) {s₁ : Text}
    (hs : ¬ EndsOpen s₁) (s₂ : Text) :
    facts registry (s₁ ++ .char '\n' :: s₂) = facts registry s₁ ++
      (facts registry s₂).map (Fact.shift (Text.lines (s₁ ++ [.char '\n'])).length) := by
  rw [EndsOpen, Bool.not_eq_true] at hs
  obtain ⟨hfacts, hopen⟩ := factsFrom_concat_newline registry s₁
  rw [facts_eq_factsFrom, Text.lines_newline, factsFrom_append, factsFrom_shift hnumbering, hfacts,
    hopen, hs, ← facts_eq_factsFrom]

/-- **What says nothing between two sources** moves the facts of the second one, and that is all. -/
theorem facts_append_silent {registry : Registry} (hnumbering : registry.IsNumbering)
    {s₁ m : Text} (hs : ¬ EndsOpen s₁) (hm : Silent false (Text.lines (m ++ [.char '\n'])) false)
    (s₂ : Text) :
    facts registry (s₁ ++ .char '\n' :: m ++ .char '\n' :: s₂) = facts registry s₁ ++
      (facts registry s₂).map
        (Fact.shift (Text.lines (s₁ ++ .char '\n' :: m ++ [.char '\n'])).length) := by
  have hnothing : facts registry m = [] := by
    rw [← (factsFrom_concat_newline registry m).1]
    exact hm.facts registry 1
  have hopen : ¬ EndsOpen (s₁ ++ .char '\n' :: m) := by
    rw [EndsOpen, Bool.not_eq_true] at hs ⊢
    rw [Text.lines_newline, openAfter_append, (factsFrom_concat_newline registry s₁).2, hs,
      ← (factsFrom_concat_newline registry m).2]
    exact hm.state
  rw [facts_append hnumbering hopen, facts_append hnumbering hs, hnothing, List.map_nil,
    List.append_nil]

/-! ## Comments behind code -/

/-- A line that starts inside or outside a block comment ends outside of comments and literals. -/
def EndsInCode (inBlock : Bool) (line : Text) : Prop :=
  (Comment.strip inBlock line).2 = false ∧
    Lexical.code.after (Comment.strip inBlock line).1 = .code

instance (inBlock : Bool) (line : Text) : Decidable (EndsInCode inBlock line) :=
  inferInstanceAs (Decidable (_ ∧ _))

/-- What is taken off the start of a line begins neither a comment nor a literal. -/
theorem exists_eq_append_unmark (line : Text) :
    ∃ u : Text, line = u ++ unmark line.stripStart ∧
      ∀ p ∈ u, Comment.isInert p = true ∧ p ≠ .char '*' := by
  have hline : line = line.takeWhile CodePoint.isBlank ++ line.stripStart :=
    List.takeWhile_append_dropWhile.symm
  have hblank : ∀ p ∈ line.takeWhile CodePoint.isBlank,
      Comment.isInert p = true ∧ p ≠ .char '*' := fun p hp =>
    Comment.isInert_of_isBlank (List.mem_takeWhile_imp hp)
  by_cases hmark : line.stripStart.head? = some (.char '\uFEFF')
  · obtain ⟨t, ht⟩ := List.head?_eq_some_iff.1 hmark
    refine ⟨line.takeWhile CodePoint.isBlank ++ [.char '\uFEFF'], ?_, fun p hp => ?_⟩
    · rw [ht, unmark, List.append_assoc, List.singleton_append, ← ht, ← hline]
    · rcases List.mem_append.1 hp with hp | hp
      · exact hblank p hp
      · rw [List.mem_singleton.1 hp]
        decide
  · refine ⟨line.takeWhile CodePoint.isBlank, ?_, hblank⟩
    cases hstart : line.stripStart with
    | nil => rw [unmark, ← hstart, ← hline]; rintro t ⟨⟩
    | cons p t =>
      have hp : p ≠ .char '\uFEFF' := fun h => hmark (by rw [hstart, h]; rfl)
      rw [unmark_cons hp, ← hstart, ← hline]

theorem endsInCode_append {inBlock : Bool} {u t : Text}
    (hu : ∀ p ∈ u, Comment.isInert p = true ∧ p ≠ .char '*') (h : EndsInCode inBlock (u ++ t)) :
    EndsInCode inBlock t := by
  cases inBlock with
  | true =>
    have hskip : Comment.strip true (u ++ t) = Comment.strip true t :=
      Comment.stripBlock_append (fun p hp => (hu p hp).2) t
    rwa [EndsInCode, hskip] at h
  | false =>
    have hkeep : Comment.strip false (u ++ t) = Comment.keepAll u (Comment.strip false t) :=
      Comment.stripCode_append (fun p hp => (hu p hp).1) t
    rw [EndsInCode, hkeep] at h
    have hcode := h.2
    rw [Comment.keepAll, Lexical.after, List.foldl_append] at hcode
    have hafter : u.foldl Lexical.next .code = .code :=
      Comment.after_of_isInert fun p hp => (hu p hp).1
    rw [hafter] at hcode
    exact ⟨h.1, hcode⟩

/-- **A comment behind the code of a line** changes neither the code nor where the line ends. -/
theorem strip_comment {inBlock : Bool} {line : Text} (h : EndsInCode inBlock line) (c : Text) :
    (Comment.strip inBlock (trim (line ++ (" //" ++ c : Text)))).1.strip =
        (Comment.strip inBlock (trim line)).1.strip ∧
      (Comment.strip inBlock (trim (line ++ (" //" ++ c : Text)))).2 =
        (Comment.strip inBlock (trim line)).2 := by
  by_cases hstart : line.stripStart = []
  · -- A blank line becomes a line comment.
    have hblank : ∀ p ∈ line, p.isBlank = true := List.dropWhile_eq_nil_iff.1 hstart
    cases inBlock with
    | true =>
      have hopen : ¬ ("*/" : Text) <:+: line := fun hclose =>
        absurd (hblank (.char '*') (hclose.subset (by decide))) (by decide)
      have hstate := h.1
      rw [Comment.strip, if_pos rfl, Comment.stripBlock_open hopen] at hstate
      cases hstate
    | false =>
      have hspaced : ∀ p ∈ line ++ (" " : Text), p.isBlank = true :=
        fun p hp => (List.mem_append.1 hp).elim (hblank p) fun hp => by
          rw [List.mem_singleton.1 hp]
          rfl
      have htrim : trim (line ++ (" //" ++ c : Text)) = .char '/' :: .char '/' :: c.stripEnd := by
        have htext : line ++ (" //" ++ c : Text) =
            (line ++ (" " : Text)) ++ .char '/' :: .char '/' :: c := by
          simp [Text.ofString]
        rw [htext, trim_blank_append hspaced, trim_mark rfl (by decide), Text.stripEnd_cons rfl]
      have hnil : trim line = [] := by
        rw [trim_eq, hstart]
        rfl
      rw [htrim, hnil]
      exact ⟨rfl, rfl⟩
  · obtain ⟨u, hline, hu⟩ := exists_eq_append_unmark line
    have hlead : EndsInCode inBlock (unmark line.stripStart) := by
      rw [hline] at h
      exact endsInCode_append hu h
    obtain ⟨w, hw, hblank⟩ := Text.exists_eq_stripEnd_append (unmark line.stripStart)
    have htrim : trim (line ++ (" //" ++ c : Text)) =
        unmark line.stripStart ++ (" //" ++ c.stripEnd : Text) := by
      have htext : unmark line.stripStart ++ (" //" ++ c : Text) =
          (unmark line.stripStart ++ (" /" : Text)) ++ .char '/' :: c := by
        simp [Text.ofString]
      rw [trim_append hstart, htext, Text.stripEnd_append_cons rfl]
      simp [Text.ofString]
    obtain ⟨hcode, hstate⟩ :=
      Comment.strip_append_blank inBlock (unmark line.stripStart).stripEnd hblank
    obtain ⟨hcode', hstate'⟩ := Comment.strip_append_comment hlead.1 hlead.2 c.stripEnd
    rw [← hw] at hcode hstate
    rw [htrim, trim_eq]
    exact ⟨hcode'.trans hcode, hstate'.trans (hlead.1.symm.trans hstate)⟩

theorem factsFrom_comment (registry : Registry) {inBlock : Bool} {line : Text}
    (h : EndsInCode inBlock line) (c : Text) (number : Nat) (rest : List Text) :
    factsFrom registry inBlock number ((line ++ (" //" ++ c : Text)) :: rest) =
      factsFrom registry inBlock number (line :: rest) := by
  obtain ⟨hcode, hstate⟩ := strip_comment h c
  rw [factsFrom, factsFrom]
  simp only [hcode, hstate]

/-- A line within a text: what is before it has ended, and what is behind it starts with its end. -/
structure IsLine (u line v : Text) : Prop where
  inLine : line.InLine
  before : u.EndsLine
  behind : v.StartsBreak
  /-- An empty line does not stand inside of a line end that is two code points long. -/
  whole : line = [] → u.getLast? = some (.char '\r') → v.head? ≠ some (.char '\n')

/-- **A comment behind a line** changes no fact of a text. -/
theorem facts_comment (registry : Registry) {u line v : Text} (hline : IsLine u line v)
    (hcode : EndsInCode (openAfter false u.lines) line) {c : Text} (hc : c.InLine) :
    facts registry (u ++ (line ++ (" //" ++ c : Text)) ++ v) = facts registry (u ++ line ++ v) := by
  have hcommented : (line ++ (" //" ++ c : Text)).InLine :=
    hline.inLine.append (.append (by decide) hc)
  have hne : line ++ (" //" ++ c : Text) ≠ [] := by simp [Text.ofString]
  have hsplit : ∀ l : Text, l.InLine → (l = [] → line = []) →
      Text.lines (u ++ l ++ v) = u.lines ++ Text.lines (l ++ v) := by
    intro l hl hempty
    rw [List.append_assoc]
    refine Text.lines_append hline.before fun hbreak => ?_
    cases l with
    | nil => exact hline.whole (hempty rfl) hbreak.1 hbreak.2
    | cons p l => exact hl.not_mem rfl (List.mem_of_head? hbreak.2)
  rw [facts_eq_factsFrom, facts_eq_factsFrom, hsplit _ hcommented fun h => absurd h hne,
    hsplit _ hline.inLine id, factsFrom_append, factsFrom_append]
  congr 1
  by_cases hv : v = []
  · rw [hv, List.append_nil, List.append_nil, Text.lines_of_inLine hcommented hne,
      factsFrom_comment registry hcode]
    by_cases hempty : line = []
    · -- No line at all is as good as an empty one.
      rw [hempty, (silent_empty _).facts]
      rfl
    · rw [Text.lines_of_inLine hline.inLine hempty]
  · obtain ⟨rest, hrest⟩ := Text.exists_lines_append hline.behind hv
    rw [hrest _ hcommented, hrest _ hline.inLine, factsFrom_comment registry hcode]

/-- **What is commented out contributes nothing.** A block comment or a line comment between two
sources moves the facts of the second one by the lines before it, and a comment behind a line that
ends outside of comments and literals changes no fact of the text. -/
theorem facts_commented :
    (∀ s₁ s₂ c : Text, ¬ EndsOpen s₁ → ¬ ("*/" : Text) <:+: c →
      facts .standard (s₁ ++ "\n/*" ++ c ++ "*/\n" ++ s₂) = facts .standard s₁ ++
        (facts .standard s₂).map
          (Fact.shift (Text.lines (s₁ ++ "\n/*" ++ c ++ "*/\n")).length)) ∧
    (∀ s₁ s₂ c : Text, ¬ EndsOpen s₁ → c.InLine →
      facts .standard (s₁ ++ "\n//" ++ c ++ "\n" ++ s₂) = facts .standard s₁ ++
        (facts .standard s₂).map
          (Fact.shift (Text.lines (s₁ ++ "\n//" ++ c ++ "\n")).length)) ∧
    ∀ u line v c : Text, IsLine u line v → EndsInCode (openAfter false u.lines) line → c.InLine →
      facts .standard (u ++ (line ++ " //" ++ c) ++ v) = facts .standard (u ++ line ++ v) := by
  refine ⟨fun s₁ s₂ c hs hc => ?_, fun s₁ s₂ c hs hc => ?_, fun u line v c hline hcode hc => ?_⟩
  · have htext : ∀ t : Text, (s₁ ++ "\n/*" ++ c ++ "*/\n" : Text) ++ t =
        s₁ ++ .char '\n' :: ("/*" ++ c ++ "*/" : Text) ++ .char '\n' :: t := by
      intro t
      simp [Text.ofString]
    have hbefore := htext []
    rw [List.append_nil] at hbefore
    rw [htext, hbefore]
    exact facts_append_silent Registry.isNumbering_standard hs (silent_block hc) s₂
  · have htext : ∀ t : Text, (s₁ ++ "\n//" ++ c ++ "\n" : Text) ++ t =
        s₁ ++ .char '\n' :: ("//" ++ c : Text) ++ .char '\n' :: t := by
      intro t
      simp [Text.ofString]
    have hbefore := htext []
    rw [List.append_nil] at hbefore
    rw [htext, hbefore]
    exact facts_append_silent Registry.isNumbering_standard hs (silent_line hc) s₂
  · rw [List.append_assoc line]
    exact facts_comment .standard hline hcode hc

/-- Calls in a comment of two lines, in a line comment, and behind a line that ends with a text. -/
theorem facts_commented_calls :
    let s₁ : Text := "a = lv_obj_create(p);"
    let s₂ : Text := "lv_label_set_text(b, \"/* x\");"
    let c : Text := " 'c = lv_obj_create(a);\n/ lv_obj_center(a); // *"
    let before : Text := s₁ ++ "\n"
    (¬ EndsOpen s₁) ∧ (¬ ("*/" : Text) <:+: c) ∧ IsLine before s₂ [] ∧
      EndsInCode (openAfter false before.lines) s₂ ∧
      facts .standard (s₁ ++ "\n/*" ++ c ++ "*/\n" ++ s₂) =
        facts .standard s₁ ++ (facts .standard s₂).map (Fact.shift 3) ∧
      facts .standard (s₁ ++ "\n//" ++ s₂ ++ "\n" ++ s₂) =
        facts .standard s₁ ++ (facts .standard s₂).map (Fact.shift 2) ∧
      facts .standard (before ++ (s₂ ++ " //" ++ s₁ : Text) ++ []) =
        facts .standard (before ++ s₂ ++ []) ∧
      (facts .standard (s₁ ++ "\n/*" ++ c ++ "*/\n" ++ s₂)).map Fact.identifier =
        [("a" : Text), "b"] := by
  repeat rw [Text.ofString_ofList]
  intro s₁ s₂ c before
  have hopen : ¬ EndsOpen s₁ := by decide +kernel
  have hc : ¬ ("*/" : Text) <:+: c := by decide +kernel
  have hs₁ : s₁.InLine := by decide
  have hs₂ : s₂.InLine := by decide
  have hline : IsLine before s₂ [] :=
    ⟨hs₂, Text.endsLine_concat s₁ rfl, Text.startsBreak_nil, fun h => absurd h (by decide)⟩
  have hcode : EndsInCode (openAfter false before.lines) s₂ := by decide +kernel
  obtain ⟨hblock, hlined, hbehind⟩ := facts_commented
  have hblock := hblock s₁ s₂ c hopen hc
  have hlined := hlined s₁ s₂ s₂ hopen hs₂
  have hthree : (Text.lines (s₁ ++ "\n/*" ++ c ++ "*/\n")).length = 3 := by decide +kernel
  have htwo : (Text.lines (s₁ ++ "\n//" ++ s₂ ++ "\n")).length = 2 := by decide +kernel
  rw [hthree] at hblock
  rw [htwo] at hlined
  refine ⟨hopen, hc, hline, hcode, hblock, hlined, hbehind before s₂ [] s₁ hline hcode hs₁, ?_⟩
  refine (congrArg (List.map Fact.identifier) hblock).trans ?_
  decide +kernel

end Extraction

end LvglForest
