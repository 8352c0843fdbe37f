import LvglForest.Proofs.Code.Generation
import LvglForest.Proofs.Fact.Division
import LvglForest.Proofs.Fact.Reader

/-!
# Texts that break their lines

In a literal the control characters of ASCII and the kept bytes are escaped, but three code points
that end a line are not: the next line U+0085 and the separators U+2028 and U+2029. These alone are
the breaks in what is written for a text (`Literal.filter_encode`), so the statement that sets a
text takes one line more for each of them.

The first of these lines ends within the literal. Nothing in it closes the literal or the call, so
the text is read back from the statement exactly if there is no such code point in it
(`Extraction.setText_readBack`).
-/

namespace LvglForest

/-! ## Breaks in literals -/

/-- A code point that ends a line and is no control character of ASCII. -/
def CodePoint.isWideBreak (p : CodePoint) : Bool :=
  p.value == 0x85 || p.value == 0x2028 || p.value == 0x2029

theorem CodePoint.isLineBreak_eq_isWideBreak {p : CodePoint} (h : 0x20 ≤ p.value) :
    p.isLineBreak = p.isWideBreak := by
  rw [Bool.eq_iff_iff]
  simp only [isLineBreak, isWideBreak, Bool.or_eq_true, Bool.and_eq_true, decide_eq_true_eq,
    beq_iff_eq]
  omega

theorem CodePoint.isLineBreak_of_isWideBreak {p : CodePoint} (h : p.isWideBreak = true) :
    p.isLineBreak = true := by
  rw [isLineBreak_eq_isWideBreak, h]
  simp only [isWideBreak, Bool.or_eq_true, beq_iff_eq] at h
  omega

namespace Literal

theorem hasNoWideBreak_iff {t : Text} :
    HasNoWideBreak t ↔ ∀ p ∈ t, p.isWideBreak = false := by
  simp only [HasNoWideBreak, CodePoint.isWideBreak, Bool.or_eq_false_iff, beq_eq_false_iff_ne,
    and_assoc]

/-- A wide break is written as it is. -/
theorem encodePoint_of_isWideBreak {p : CodePoint} (h : p.isWideBreak = true) :
    encodePoint p = [p] := by
  simp only [CodePoint.isWideBreak, Bool.or_eq_true, beq_iff_eq] at h
  have hne {c : CodePoint} (hc : c.value < 0x80) : p ≠ c := by
    rintro rfl
    omega
  unfold encodePoint
  rw [if_neg (not_or.2 ⟨hne (by decide), hne (by decide)⟩), if_neg (hne (by decide)),
    if_neg (hne (by decide)), if_neg (hne (by decide)), if_neg (by omega), if_neg (by omega)]

/-- The breaks in what is written for a code point. -/
theorem filter_encodePoint (p : CodePoint) :
    (encodePoint p).filter CodePoint.isLineBreak = [p].filter CodePoint.isWideBreak := by
  by_cases hwide : p.isWideBreak = true
  · rw [encodePoint_of_isWideBreak hwide, List.filter_singleton, List.filter_singleton, hwide,
      CodePoint.isLineBreak_of_isWideBreak hwide]
  · rw [List.filter_singleton, Bool.eq_false_iff.2 hwide, cond_false, List.filter_eq_nil_iff]
    intro q hq
    rcases encodePoint_cases p with ⟨he, hlow, -⟩ | ⟨x, he, hx⟩
    · rw [he, List.mem_singleton] at hq
      rw [hq, CodePoint.isLineBreak_eq_isWideBreak hlow]
      exact hwide
    · rw [he, List.mem_cons] at hq
      rcases hq with rfl | hq
      · decide
      · obtain ⟨hlow, hhigh, -⟩ := hx q hq
        rw [CodePoint.isLineBreak_eq_isWideBreak hlow]
        simp only [CodePoint.isWideBreak, Bool.or_eq_true, beq_iff_eq]
        omega

theorem filter_encodeBody (t : Text) :
    (encodeBody t).filter CodePoint.isLineBreak = t.filter CodePoint.isWideBreak := by
  induction t with
  | nil => rfl
  | cons p t ih =>
    rw [encodeBody_cons, List.filter_append, filter_encodePoint, ih, ← List.filter_append,
      List.singleton_append]

/-- **The breaks in a literal** are the wide breaks of its text. -/
theorem filter_encode (t : Text) :
    (encode t).filter CodePoint.isLineBreak = t.filter CodePoint.isWideBreak := by
  have hquote : ([.char '"'] : Text).filter CodePoint.isLineBreak = [] := by decide
  rw [encode, List.cons_append, ← List.singleton_append, List.filter_append, List.filter_append,
    filter_encodeBody, hquote, List.append_nil, List.nil_append]

theorem inLine_encode_iff {t : Text} : (encode t).InLine ↔ HasNoWideBreak t := by
  have hline : (encode t).InLine ↔ (encode t).filter CodePoint.isLineBreak = [] := by
    simp [Text.InLine, List.filter_eq_nil_iff]
  rw [hline, filter_encode, hasNoWideBreak_iff, List.filter_eq_nil_iff]
  simp

/-- A text up to its first wide break. -/
theorem exists_wideBreak {t : Text} (h : ¬ HasNoWideBreak t) :
    ∃ (u : Text) (p : CodePoint) (v : Text), t = u ++ p :: v ∧ HasNoWideBreak u ∧
      p.isWideBreak = true := by
  induction t with
  | nil => exact absurd (hasNoWideBreak_iff.2 fun _ hp => absurd hp List.not_mem_nil) h
  | cons q t ih =>
    by_cases hq : q.isWideBreak = true
    · exact ⟨[], q, t, rfl, hasNoWideBreak_iff.2 fun _ hp => absurd hp List.not_mem_nil, hq⟩
    · have hrest : ¬ HasNoWideBreak t := by
        intro ht
        rw [hasNoWideBreak_iff, List.forall_mem_cons] at h
        exact h ⟨Bool.eq_false_iff.2 hq, hasNoWideBreak_iff.1 ht⟩
      obtain ⟨u, p, v, rfl, hu, hp⟩ := ih hrest
      refine ⟨q :: u, p, v, rfl, ?_, hp⟩
      rw [hasNoWideBreak_iff, List.forall_mem_cons]
      exact ⟨Bool.eq_false_iff.2 hq, hasNoWideBreak_iff.1 hu⟩

end Literal

/-- A line more for each break, if no carriage return joins with a line feed. -/
theorem Text.length_lines_newline {t : Text} (h : .char '\r' ∉ t) :
    (lines (t ++ [.char '\n'])).length = t.countP CodePoint.isLineBreak + 1 := by
  induction t with
  | nil => rfl
  | cons p t ih =>
    rw [List.mem_cons, not_or] at h
    have hrest := ih h.2
    rw [List.cons_append]
    by_cases hp : p.isLineBreak = true
    · rw [lines_break hp fun hpair => h.1 hpair.1.symm, List.length_cons, hrest,
        List.countP_cons_of_pos hp]
    · have hne : lines (t ++ [.char '\n']) ≠ [] := lines_ne_nil (by simp)
      obtain ⟨l, ls, hls⟩ := List.exists_cons_of_ne_nil hne
      rw [hls] at hrest
      rw [lines_cons (Bool.eq_false_iff.2 hp), hls, ontoFirst, List.countP_cons_of_neg hp, ← hrest]
      rfl

/-! ## Texts among the facts -/

namespace Recognizer

/-- The setters of other things read no text off a call. -/
theorem ne_text_of_read {read : Call → Except Fault (Option (Text × Assertion))}
    (hread : read ∈ [readCreation, readSize, readValue, readRange, readKnownStyle, readOtherStyle,
      readAlign, readCenter, readPosition]) {call : Call} {id : Text} {a : Assertion}
    (h : read call = .ok (some (id, a))) (v : Value) : a ≠ .text v := by
  simp only [List.mem_cons, List.not_mem_nil, or_false] at hread
  obtain rfl | rfl | rfl | rfl | rfl | rfl | rfl | rfl | rfl := hread
  · obtain ⟨_, -, rfl⟩ := exists_of_readCreation h
    nofun
  · obtain ⟨-, _, _, _, _, -, -, -, rfl⟩ := exists_of_readSize h
    nofun
  · obtain ⟨-, _, _, -, rfl⟩ := exists_of_readValue h
    nofun
  · obtain ⟨-, _, _, -, rfl⟩ := exists_of_readRange h
    nofun
  · obtain ⟨-, _, _, _, -, -, rfl⟩ := exists_of_readKnownStyle h
    nofun
  · obtain ⟨-, _, _, _, -, -, rfl⟩ := exists_of_readOtherStyle h
    nofun
  · obtain ⟨-, _, _, _, -, rfl⟩ := exists_of_readAlign h
    nofun
  · obtain ⟨-, -, rfl⟩ := exists_of_readCenter h
    nofun
  · obtain ⟨-, _, _, -, rfl⟩ := exists_of_readPosition h
    nofun

/-- **Only the recognizer of texts finds texts.** -/
theorem eq_text_of_find? {c : Category} {r : Recognizer}
    (hr : r ∈ Registry.standard.recognizers c) {line : Text} {number : Int} {f : Fact} {v : Value}
    (h : r.find? line number = some f) (hf : f.assertion = .text v) : r = text := by
  have hcall {name : Except Fault Text} {pattern : CallPattern}
      {read : Call → Except Fault (Option (Text × Assertion))} {remarks : Text → Int → List Text}
      (hread : read ∈ [readCreation, readSize, readValue, readRange, readKnownStyle,
        readOtherStyle, readAlign, readCenter, readPosition]) :
      find? { name, run := ofCall pattern read, remarks } line number ≠ some f := by
    intro hfound
    obtain ⟨call, -, hsaid⟩ := exists_call_of_ofCall (run_of_find? hfound)
    exact ne_text_of_read hread hsaid v hf
  cases c <;> simp only [Registry.standard, List.mem_cons, List.not_mem_nil, or_false] at hr
  case declaration =>
    subst hr
    obtain ⟨id, -, rfl⟩ :=
      Option.map_eq_some_iff.1 (show (declared? line).map _ = some f from h)
    cases hf
  case creation => exact absurd (hr ▸ h) (hcall (by simp))
  case property =>
    obtain rfl | rfl | rfl | rfl := hr
    · rfl
    · exact absurd h (hcall (by simp))
    · exact absurd h (hcall (by simp))
    · exact absurd h (hcall (by simp))
  case style => obtain rfl | rfl := hr <;> exact absurd h (hcall (by simp))
  case layout => obtain rfl | rfl | rfl := hr <;> exact absurd h (hcall (by simp))

end Recognizer

/-! ## The statement that sets a text -/

/-- The statement that sets the text of a widget of a kind. -/
def Statement.setText (k : Kind) (id t : Text) : Statement :=
  .call (("lv_" : Text) ++ k.sourceName ++ "_set_text") [id, Literal.encode t]

theorem Statement.line_call (d : Detail) (f : Text) (args : List Text) :
    (call f args).line d = d.indent ++ (call f args).text := by
  rw [line, if_neg (by simp [text_call])]

/-- It is emitted for every widget that has a text and a setter for it. -/
theorem Widget.setText_mem_emissions {w : Widget} {k : Kind} (hkind : w.kind = .text k.name)
    (hhas : k.hasText = true) {t : Text} (htext : w.text = .text t) (d : Detail)
    (id parent : Text) :
    .ok (.statement (Statement.setText k id t)) ∈ w.emissions d id parent := by
  have hcharacters : (Value.text t).characters = .ok t := Value.characters_text t
  have hproperty : .ok (.statement (Statement.setText k id t)) ∈ w.propertyEmissions id := by
    unfold propertyEmissions
    simp only [hkind, Kind.ofValue?_name, Option.elim, hhas, htext, hcharacters]
    exact List.mem_append_left _ (List.mem_append_left _ (List.mem_singleton_self _))
  simp only [emissions, List.mem_append]
  exact .inl (.inl (.inr hproperty))

namespace Extraction

/-- What stands before the literal in a call that sets a text. -/
def front (f id : Text) : Text := f ++ .char '(' :: (id ++ [.char ',', .char ' '])

section Line

variable {f id : Text} (hf : Recognizer.SetsText f) (hid : id.isIdentifier = true)

theorem text_setter (f id t : Text) : (Statement.call f [id, Literal.encode t]).text =
    front f id ++ .char '"' :: Recognizer.quoted t := by
  rw [Statement.text_call, front, Recognizer.quoted]
  simp only [Text.join, Literal.encode, List.append_assoc, List.cons_append, List.nil_append]
  rfl

theorem line_setter (d : Detail) (f id t : Text) :
    (Statement.call f [id, Literal.encode t]).line d =
      d.indent ++ (front f id ++ .char '"' :: Recognizer.quoted t) := by
  rw [Statement.line_call, text_setter]

include hf hid

theorem inLine_front : (front f id).InLine := by
  have hcomma : Text.InLine [.char ',', .char ' '] := by decide
  have hword := (Text.isWord_of_isIdentifier hid).inLine
  exact .append hf.word.inLine (List.forall_mem_cons.2 ⟨rfl, hword.append hcomma⟩)

/-- The breaks in a line that sets a text are those of the text. -/
theorem filter_line (d : Detail) (t : Text) :
    ((Statement.call f [id, Literal.encode t]).line d).filter CodePoint.isLineBreak =
      t.filter CodePoint.isWideBreak := by
  have hnone {u : Text} (hu : u.InLine) : u.filter CodePoint.isLineBreak = [] := by
    rw [List.filter_eq_nil_iff]
    intro p hp
    rw [hu p hp]
    exact Bool.false_ne_true
  have hend : Text.InLine ("\");" : Text) := by decide
  rw [line_setter, Recognizer.quoted, ← List.singleton_append]
  simp only [List.filter_append, hnone d.inLine_indent, hnone (inLine_front hf hid), hnone hend,
    Literal.filter_encodeBody, hnone (show Text.InLine [.char '"'] by decide), List.nil_append,
    List.append_nil]

/-- **A line more for each wide break.** -/
theorem length_lines_line (d : Detail) (t : Text) :
    (Text.lines ((Statement.call f [id, Literal.encode t]).line d ++ [.char '\n'])).length =
      t.countP CodePoint.isWideBreak + 1 := by
  have hfilter := filter_line hf hid d t
  have hreturn : .char '\r' ∉ (Statement.call f [id, Literal.encode t]).line d := by
    intro hmem
    have hbreak : .char '\r' ∈ t.filter CodePoint.isWideBreak :=
      hfilter ▸ List.mem_filter.2 ⟨hmem, rfl⟩
    exact absurd (List.mem_filter.1 hbreak).2 (by decide)
  rw [Text.length_lines_newline hreturn, List.countP_eq_length_filter, hfilter,
    ← List.countP_eq_length_filter]

/-- The line of a text is one line exactly if there is no wide break in the text. -/
theorem lines_line_iff (d : Detail) (t : Text) :
    Text.lines ((Statement.call f [id, Literal.encode t]).line d ++ [.char '\n']) =
      [(Statement.call f [id, Literal.encode t]).line d] ↔ Literal.HasNoWideBreak t := by
  have hfilter := filter_line hf hid d t
  have hnone : Literal.HasNoWideBreak t ↔ t.filter CodePoint.isWideBreak = [] := by
    rw [Literal.hasNoWideBreak_iff, List.filter_eq_nil_iff]
    simp
  rw [hnone]
  constructor
  · intro h
    have hlength := length_lines_line hf hid d t
    rw [h, List.length_singleton, List.countP_eq_length_filter] at hlength
    exact List.length_eq_zero_iff.1 (Nat.succ_inj.1 hlength).symm
  · intro h
    rw [h, List.filter_eq_nil_iff] at hfilter
    exact Text.lines_append_newline (fun p hp => Bool.eq_false_iff.2 (hfilter p hp)) []

/-! ## What is read from the first line -/

omit hid in
variable (id) in
theorem head?_front (u : Text) : ∃ p, (front f id ++ u).head? = some p ∧ p.isWord = true := by
  obtain ⟨p, g, hg⟩ := List.exists_cons_of_ne_nil hf.word.ne_nil
  have hp : p ∈ f := hg ▸ List.mem_cons_self
  exact ⟨p, by rw [front, hg]; rfl, hf.word.all p hp⟩

/-- A line that ends within the literal is read as it is, but for blanks at its end. -/
theorem exists_codeOf_unclosed (d : Detail) {b : Text} (hb : Literal.IsBody (.char '"') b) :
    ∃ x, x <+: b ∧
      codeOf (d.indent ++ (front f id ++ .char '"' :: b)) = front f id ++ .char '"' :: x := by
  obtain ⟨p, hhead, hp⟩ := head?_front id hf (.char '"' :: b)
  have hquote : (CodePoint.char '"').isBlank = false := rfl
  obtain ⟨w, hw, -⟩ := Text.exists_eq_stripEnd_append b
  have hx : b.stripEnd <+: b := ⟨w, hw.symm⟩
  have hend := Text.stripEnd_append_cons hquote (front f id) b
  have htrim : trim (d.indent ++ (front f id ++ .char '"' :: b)) =
      front f id ++ .char '"' :: b.stripEnd := by
    rw [trim_blank_append d.isBlank_indent, trim_of_head? hhead hp, hend]
  have htrimmed : Text.IsTrimmed (front f id ++ .char '"' :: b.stripEnd) := by
    have hstrip := Text.isTrimmed_strip (front f id ++ .char '"' :: b)
    have hstart : Text.stripStart (front f id ++ .char '"' :: b) = front f id ++ .char '"' :: b :=
      Text.stripStart_of_head fun q hq => by
        rw [hhead] at hq
        exact Option.some.inj hq ▸ CodePoint.isBlank_of_isWord hp
    rwa [Text.strip, hstart, hend] at hstrip
  have hkept : Comment.Kept (front f id) := by
    have hcomma : Comment.Kept [.char ',', .char ' '] := .of_isInert (by decide)
    have hopen : Comment.Kept [.char '('] := .of_isInert (by decide)
    have hargs := (Comment.Kept.of_isWord (Text.isWord_of_isIdentifier hid)).append hcomma
    exact (Comment.Kept.of_isWord hf.word).append (hopen.append hargs)
  have hcode : Comment.stripCode .code (.char '"' :: b.stripEnd) =
      (.char '"' :: b.stripEnd, false) := by
    have hnext : Lexical.code.next (.char '"') = .literal (.char '"') := rfl
    rw [Comment.stripCode_cons (by decide), hnext, Comment.stripCode_unclosed hb hx]
    rfl
  refine ⟨b.stripEnd, hx, ?_⟩
  rw [codeOf, htrim, Comment.strip, if_neg Bool.false_ne_true, hkept, hcode]
  exact Text.strip_eq_self htrimmed

/-- The call in such a line is not closed, so no text is found. -/
theorem find?_text_unclosed {b x : Text} (hb : Literal.IsBody (.char '"') b) (hx : x <+: b)
    (number : Int) : Recognizer.text.find? (front f id ++ .char '"' :: x) number = none := by
  have hnested : Arguments.Nested true (id ++ [.char ',', .char ' ']) :=
    (Arguments.Nested.of_isWord (Text.isWord_of_isIdentifier hid)).append
      (.plain rfl (.inl rfl) (.plain rfl (.inl rfl) .nil))
  have hcapture : Arguments.capture
      (.char '(' :: (id ++ [.char ',', .char ' '] ++ .char '"' :: x)) = none := by
    have hopen : Lexical.code.next (.char '(') = .code := rfl
    have hquote : Lexical.code.next (.char '"') = .literal (.char '"') := rfl
    rw [Arguments.capture, Arguments.upToClosing_code (by decide), if_pos rfl, hopen,
      Arguments.upToClosing_nested hnested (by decide), Arguments.upToClosing_code (by decide),
      if_neg (by decide), hquote, Arguments.upToClosing_unclosed hb hx]
    rfl
  obtain ⟨gs, hgs⟩ := hf.accepted
  have hfind : Recognizer.textPattern.find? (front f id ++ .char '"' :: x) = none := by
    rw [front, List.append_assoc, List.cons_append]
    exact CallPattern.find?_unclosed hf.word hgs hcapture
  show (Recognizer.ofCall Recognizer.textPattern Recognizer.readText _ number).toOption.join = none
  rw [Recognizer.toOption_ofCall, hfind]
  rfl

/-- A call that sets a text is read as it is. -/
theorem codeOf_line (d : Detail) (t : Text) :
    codeOf ((Statement.call f [id, Literal.encode t]).line d) =
      (Statement.call f [id, Literal.encode t]).text := by
  have hkept : ∀ x ∈ [id, Literal.encode t], Comment.Kept x := by
    rw [List.forall_mem_cons, List.forall_mem_singleton]
    exact ⟨.of_isWord (Text.isWord_of_isIdentifier hid), .literal (Literal.isBody_encodeBody t)⟩
  rw [Statement.line_call]
  exact (codeOf_call d.isBlank_indent hf.word hkept).1

/-- The first line of a text with a wide break ends within the literal. -/
theorem exists_lines_line (d : Detail) {t : Text} (h : ¬ Literal.HasNoWideBreak t) :
    ∃ (u : Text) (rest : List Text),
      Text.lines ((Statement.call f [id, Literal.encode t]).line d ++ [.char '\n']) =
        (d.indent ++ (front f id ++ .char '"' :: Literal.encodeBody u)) :: rest := by
  obtain ⟨u, p, v, rfl, hu, hp⟩ := Literal.exists_wideBreak h
  have hbody : Literal.encodeBody (u ++ p :: v) =
      Literal.encodeBody u ++ p :: Literal.encodeBody v := by
    rw [Literal.encodeBody, List.flatMap_append, List.flatMap_cons,
      Literal.encodePoint_of_isWideBreak hp]
    rfl
  have hsplit : (Statement.call f [id, Literal.encode (u ++ p :: v)]).line d ++ [.char '\n'] =
      d.indent ++ (front f id ++ .char '"' :: Literal.encodeBody u) ++
        p :: (Literal.encodeBody v ++ ("\");" : Text) ++ [.char '\n']) := by
    rw [line_setter, Recognizer.quoted, hbody]
    simp only [List.append_assoc, List.cons_append]
  have hline : Text.InLine (d.indent ++ (front f id ++ .char '"' :: Literal.encodeBody u)) :=
    d.inLine_indent.append ((inLine_front hf hid).append
      (List.forall_mem_cons.2 ⟨rfl, Literal.inLine_encodeBody hu⟩))
  have hstart : Text.StartsBreak
      (p :: (Literal.encodeBody v ++ ("\");" : Text) ++ [.char '\n'])) := by
    rintro q ⟨⟩
    exact CodePoint.isLineBreak_of_isWideBreak hp
  obtain ⟨rest, hrest⟩ := Text.exists_lines_append hstart (List.cons_ne_nil _ _)
  exact ⟨u, rest, by rw [hsplit, hrest _ hline]⟩

/-- A line that ends within the literal says no text. -/
theorem text_not_mem_unclosed (d : Detail) {b : Text} (hb : Literal.IsBody (.char '"') b)
    (number : Int) {said : Fact} {v : Value} (hsaid : said.assertion = .text v) :
    said ∉ factsOf .standard (codeOf (d.indent ++ (front f id ++ .char '"' :: b))) number := by
  obtain ⟨x, hx, hcode⟩ := exists_codeOf_unclosed hf hid d hb
  rw [hcode]
  intro hmem
  obtain ⟨c, r, hr, hfound⟩ := exists_find?_of_mem_factsOf hmem
  rw [Recognizer.eq_text_of_find? hr hfound hsaid, find?_text_unclosed hf hid hb hx] at hfound
  cases hfound

/-- **The text is read back** from the line of its statement exactly if there is no wide break in
it. -/
theorem mem_factsFrom_iff {t : Text} (ht : Literal.IsDecoded t) (d : Detail) (number : Nat) :
    (⟨id, .integer number, .text (.text t)⟩ : Fact) ∈ factsFrom .standard false number
        (Text.lines ((Statement.call f [id, Literal.encode t]).line d ++ [.char '\n'])) ↔
      Literal.HasNoWideBreak t := by
  constructor
  · intro hmem
    by_contra hbreak
    obtain ⟨u, rest, hlines⟩ := exists_lines_line hf hid d hbreak
    rw [hlines, factsFrom, List.mem_append] at hmem
    rcases hmem with hmem | hmem
    · exact text_not_mem_unclosed hf hid d (Literal.isBody_encodeBody u) number rfl hmem
    · -- All facts of the other lines bear higher numbers.
      have hle : number + 1 ≤ number := le_of_mem_factsFrom hmem rfl
      omega
  · intro hbreak
    obtain ⟨gs, hgs⟩ := hf.accepted
    have hlv : ("lv_" : Text) <+: f := NamePattern.first_prefix hgs
    have hmay : mayCall (Statement.call f [id, Literal.encode t]).text = true := by
      rw [mayCall, Text.hasInfix_iff, Statement.text_call]
      exact hlv.isInfix.trans (List.prefix_append _ _).isInfix
    have hcode := codeOf_line hf hid d t
    rw [(lines_line_iff hf hid d t).2 hbreak, factsFrom, factsFrom, List.append_nil]
    show _ ∈ factsOf .standard (codeOf _) number
    rw [hcode, factsOf, if_pos hmay, Recognizer.lineFacts_setter hf hid ht]
    simp only [List.mem_append, List.mem_singleton, true_or, or_true]

end Line

/-- **Texts and the lines of their statements.** The breaks in the literal of a text that was read
from literals are the wide breaks of the text, so the literal is in one line exactly if there are
none. A widget of a kind with a setter for texts is given such a text by one statement, which takes
a line more for each wide break. The statement is read back as one line, and the text is read from
it, exactly if there is no wide break in the text. -/
theorem setText_readBack {t : Text} (ht : Literal.IsDecoded t) :
    (Literal.encode t).filter CodePoint.isLineBreak = t.filter CodePoint.isWideBreak ∧
    ((Literal.encode t).InLine ↔ Literal.HasNoWideBreak t) ∧
    ∀ (w : Widget) (k : Kind) (id : Text), w.kind = .text k.name → k.hasText = true →
      w.text = .text t → id.isIdentifier = true → ∀ (d : Detail) (parent : Text) (number : Nat),
        let s := Statement.setText k id t
        let ls := Text.lines (s.line d ++ [.char '\n'])
        .ok (.statement s) ∈ w.emissions d id parent ∧
        ls.length = t.countP CodePoint.isWideBreak + 1 ∧
        (ls = [s.line d] ↔ Literal.HasNoWideBreak t) ∧
        (⟨id, .integer number, .text (.text t)⟩ ∈ factsFrom .standard false number ls ↔
          Literal.HasNoWideBreak t) := by
  refine ⟨Literal.filter_encode t, Literal.inLine_encode_iff, ?_⟩
  intro w k id hkind hhas htext hid d parent number s ls
  have hsets := Recognizer.setsText_kind k
  exact ⟨Widget.setText_mem_emissions hkind hhas htext d id parent,
    length_lines_line hsets hid d t, lines_line_iff hsets hid d t,
    mem_factsFrom_iff hsets hid ht d number⟩

/-- A line ending of two characters and a kept byte are escaped. -/
theorem setText_readBack_escaped :
    let t : Text := ("a\r\n" : Text) ++ [.ofStrayByte 0x85] ++ ("b" : Text)
    let w : Widget :=
      { kind := .text Kind.label.name, identifier := .text "title", text := .text t }
    Literal.IsDecoded t ∧ w.kind = .text Kind.label.name ∧ Kind.label.hasText = true ∧
      w.text = .text t ∧ Text.isIdentifier "title" = true ∧ (Literal.encode t).InLine ∧
      (⟨"title", .integer 7, .text (.text t)⟩ : Fact) ∈ factsFrom .standard false 7
        (Text.lines ((Statement.setText .label "title" t).line .verbose ++ [.char '\n'])) := by
  intro t w
  have hbytes : Utf8.encode? t = some [0x61, 0x0D, 0x0A, 0x85, 0x62] := by decide
  have htext : Utf8.decode [0x61, 0x0D, 0x0A, 0x85, 0x62] = t := by decide
  have ht : Literal.IsDecoded t := ⟨_, htext ▸ Literal.decode?_encode hbytes⟩
  have hbreak : Literal.HasNoWideBreak t := by decide
  obtain ⟨-, hline, hall⟩ := setText_readBack ht
  obtain ⟨-, -, -, hread⟩ := hall w .label "title" rfl rfl rfl (by decide) .verbose "parent" 7
  exact ⟨ht, rfl, rfl, rfl, by decide, hline.2 hbreak, hread.2 hbreak⟩

/-- The next line character comes from two bytes, and its literal takes two lines. -/
theorem setText_readBack_nextLine :
    Literal.IsDecoded "a\u0085b" ∧ Literal.encode "a\u0085b" = "\"a\u0085b\"" ∧
      ¬ (Literal.encode "a\u0085b").InLine ∧
      Text.lines ((Statement.setText .label "title" "a\u0085b").line .concise ++ [.char '\n']) =
        ["  lv_label_set_text(title, \"a", "b\");"] := by
  have hbytes : Utf8.encode? "a\u0085b" = some [0x61, 0xC2, 0x85, 0x62] := by decide
  have htext : Utf8.decode [0x61, 0xC2, 0x85, 0x62] = "a\u0085b" := by decide
  exact ⟨⟨_, htext ▸ Literal.decode?_encode hbytes⟩, by decide, by decide, by decide⟩

end Extraction

end LvglForest
