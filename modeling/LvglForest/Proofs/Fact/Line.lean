import LvglForest.Proofs.Fact.Quotation
import LvglForest.Proofs.Source.Operand

/-!
# What a line says

A line says certain things if they are exactly what is read from it, whatever its number
(`Extraction.Says`). Such lines can be put one below the other: what a source says is what its lines
say in order (`contents_of_says`). A line with one call of a setter says what the call says
(`Says.call`), and a line that sets a text the text (`Says.setter`).
-/

namespace LvglForest

/-- What a fact says, without the line in which it is said. -/
def Fact.content (f : Fact) : Text × Assertion := (f.identifier, f.assertion)

/-! ## Calls as code -/

namespace Statement

variable {f : Text} {args : List Text} (hf : f.IsWord)
include hf

variable (args) in
theorem isTrimmed_call : (call f args).text.IsTrimmed := by
  obtain ⟨p, t, rfl⟩ := List.exists_cons_of_ne_nil hf.ne_nil
  have hp := hf.all p List.mem_cons_self
  have hwrap := Text.IsTrimmed.wrap (CodePoint.isBlank_of_isWord hp)
    (show (CodePoint.char ';').isBlank = false from rfl)
    (t ++ .char '(' :: (Text.join ", " args ++ [.char ')']))
  have htext : (call (p :: t) args).text =
      p :: (t ++ .char '(' :: (Text.join ", " args ++ [.char ')'])) ++ [.char ';'] := by
    rw [text_call]
    simp only [List.cons_append, List.append_assoc]
    rfl
  rw [htext]
  exact hwrap

/-- A call loses nothing that its arguments do not lose. -/
theorem kept_call (hkept : ∀ x ∈ args, Comment.Kept x) : Comment.Kept (call f args).text := by
  have hjoin : Comment.Kept (Text.join ", " args) := by
    induction args with
    | nil => exact fun t => rfl
    | cons a args ih =>
      rw [List.forall_mem_cons] at hkept
      cases args with
      | nil => exact hkept.1
      | cons b args =>
        exact (hkept.1.append (.of_isInert (by decide))).append (ih hkept.2)
  exact .append (.append (.append (.of_isWord hf) (.of_isInert (by decide))) hjoin)
    (.of_isInert (by decide))

end Statement

namespace Extraction

/-- A line of blanks and code that starts with a word is read as its code. -/
theorem codeOf_of_isWord {u t : Text} {p : CodePoint} (hblank : ∀ q ∈ u, q.isBlank = true)
    (htrimmed : t.IsTrimmed) (hkept : Comment.Kept t) (hhead : t.head? = some p)
    (hp : p.isWord = true) : codeOf (u ++ t) = t ∧ IsClosed (u ++ t) := by
  refine codeOf_blank_append hblank htrimmed (fun hmark => ?_) hkept
  rw [hhead] at hmark
  exact CodePoint.ne_mark_of_isWord hp (Option.some.inj hmark)

theorem codeOf_call {u f : Text} {args : List Text} (hblank : ∀ q ∈ u, q.isBlank = true)
    (hf : f.IsWord) (hkept : ∀ x ∈ args, Comment.Kept x) :
    codeOf (u ++ (Statement.call f args).text) = (Statement.call f args).text ∧
      IsClosed (u ++ (Statement.call f args).text) := by
  obtain ⟨p, t, rfl⟩ := List.exists_cons_of_ne_nil hf.ne_nil
  exact codeOf_of_isWord hblank (Statement.isTrimmed_call args hf) (Statement.kept_call hf hkept)
    rfl (hf.all p List.mem_cons_self)

/-- A line from which exactly the given things are read, and which closes its comments. -/
structure Says (line : Text) (said : List (Text × Assertion)) : Prop where
  inLine : line.InLine
  closed : IsClosed line
  facts : ∀ number, factsOf .standard (codeOf line) number = said.map (Recognizer.said number)

/-- A line says one thing only. -/
theorem Says.unique {line : Text} {said said' : List (Text × Assertion)} (h : Says line said)
    (h' : Says line said') : said = said' := by
  refine List.map_injective_iff.2 ?_ ((h.facts 0).symm.trans (h'.facts 0))
  rintro ⟨id, a⟩ ⟨id', a'⟩ heq
  cases heq
  rfl

/-- **What a source says** is what its lines say. -/
theorem contents_of_says {ls : List Text} {saids : List (List (Text × Assertion))}
    (h : List.Forall₂ Says ls saids) :
    (facts .standard (Text.join "\n" (ls ++ [[]]))).map Fact.content = saids.flatten := by
  have hlines : (Text.join "\n" (ls ++ [[]])).lines = ls := by
    refine Text.lines_join fun l hl => ?_
    induction h with
    | nil => cases hl
    | cons hspeaks _ ih =>
      rcases List.mem_cons.1 hl with rfl | hl
      · exact hspeaks.inLine
      · exact ih hl
  have hclosed : ∀ l ∈ ls, IsClosed l := by
    intro l hl
    clear hlines
    induction h with
    | nil => cases hl
    | cons hspeaks _ ih =>
      rcases List.mem_cons.1 hl with rfl | hl
      · exact hspeaks.closed
      · exact ih hl
  rw [facts_of_closed (by rw [hlines]; exact hclosed), hlines]
  clear hlines hclosed
  generalize 1 = start
  induction h generalizing start with
  | nil => rfl
  | @cons l said ls saids hspeaks _ ih =>
    have hcontent (number : Int) (cs : List (Text × Assertion)) :
        (cs.map (Recognizer.said number)).map Fact.content = cs := by
      rw [List.map_map]
      exact List.map_id cs
    rw [List.zipIdx_cons, List.flatMap_cons, List.map_append, ih, List.flatten_cons]
    simp only [hspeaks.facts, hcontent]

namespace Says

/-! ## Lines that say nothing -/

/-- Code that names no `lv_` says nothing. -/
theorem silent {line : Text} (hline : line.InLine) (hclosed : IsClosed line)
    (h : ¬ ("lv_" : Text) <:+: codeOf line) : Says line [] where
  inLine := hline
  closed := hclosed
  facts number := by
    rw [factsOf, mayCall, Text.hasInfix_eq_false_iff.2 h]
    rfl

theorem nil : Says [] [] := silent (by decide) rfl (by decide)

/-! ## Lines of code -/

/-- A line of blanks and code that starts with a word. -/
theorem of_code {u t : Text} {p : CodePoint} {said : List (Text × Assertion)}
    (hblank : ∀ q ∈ u, q.isBlank = true) (hu : u.InLine) (ht : t.InLine)
    (htrimmed : t.IsTrimmed) (hkept : Comment.Kept t) (hhead : t.head? = some p)
    (hp : p.isWord = true) (hlv : ("lv_" : Text) <:+: t)
    (hfacts : ∀ number, Registry.standard.lineFacts t number = said.map (Recognizer.said number)) :
    Says (u ++ t) said := by
  obtain ⟨hcode, hclosed⟩ := codeOf_of_isWord hblank htrimmed hkept hhead hp
  refine ⟨hu.append ht, hclosed, fun number => ?_⟩
  rw [hcode, factsOf, mayCall, Text.hasInfix_iff.2 hlv, if_pos rfl, hfacts]

section Call

variable {u f a : Text} {args : List Text} (hblank : ∀ q ∈ u, q.isBlank = true) (hu : u.InLine)
  (hf : f.IsWord) (hlv : ("lv_" : Text) <+: f)
include hblank hu hf hlv

/-- A line with one call. -/
theorem of_call {said : List (Text × Assertion)}
    (hline : ∀ x ∈ args, x.InLine) (hkept : ∀ x ∈ args, Comment.Kept x)
    (hfacts : ∀ number, Registry.standard.lineFacts (Statement.call f args).text number =
      said.map (Recognizer.said number)) :
    Says (u ++ (Statement.call f args).text) said := by
  obtain ⟨p, t, rfl⟩ := List.exists_cons_of_ne_nil hf.ne_nil
  have hp := hf.all p List.mem_cons_self
  have hjoin : (Text.join ", " args).InLine := .join (by decide) hline
  refine of_code hblank hu ?_ (Statement.isTrimmed_call args hf) (Statement.kept_call hf hkept)
    (p := p) rfl hp ?_ hfacts
  · exact .append (.append (.append hf.inLine (by decide)) hjoin) (by decide)
  · rw [Statement.text_call]
    exact hlv.isInfix.trans (List.prefix_append _ _).isInfix

/-- **A call of a setter** says what its name and its arguments say. -/
theorem call (hargs : ∀ x ∈ a :: args, Arguments.IsToken x) :
    Says (u ++ (Statement.call f (a :: args)).text) (Recognizer.saying f (a :: args)) := by
  have hquiet : Recognizer.QuietArguments f (a :: args) := by
    have hrejects : ∀ pattern ∈ Recognizer.patterns,
        pattern.Rejects "LV_PCT" ∧ pattern.Rejects "lv_color_hex" := by decide
    intro pattern hpattern _
    obtain ⟨hpercent, hcolor⟩ := hrejects pattern hpattern
    have hpassed : ∀ x ∈ a :: args, pattern.PassedBy x :=
      fun x hx => (hargs x hx).passedBy hpercent hcolor
    exact CallPattern.search?_join hpassed (.inr rfl) [.char ';']
  exact of_call hblank hu hf hlv (fun x hx => (hargs x hx).inLine)
    (fun x hx => (hargs x hx).kept)
    fun number => Registry.lineFacts_call hf (fun x hx => (hargs x hx).isArgument) hquiet number

/-- **A call that sets a text** says the text. -/
theorem setter {id t : Text} (hsets : Recognizer.SetsText f) (hid : id.isIdentifier = true)
    (ht : Literal.IsDecoded t) (hbreak : Literal.HasNoWideBreak t)
    (hno : ¬ ("lv_" : Text) <:+: t) :
    Says (u ++ (Statement.call f [id, Literal.encode t]).text) [(id, .text (.text t))] := by
  have hword := Text.isWord_of_isIdentifier hid
  have hquote : Text.InLine [.char '"'] := by decide
  refine of_call hblank hu hf hlv ?_ ?_ fun number => ?_
  · rw [List.forall_mem_cons, List.forall_mem_singleton]
    exact ⟨hword.inLine, .append (.append hquote (Literal.inLine_encodeBody hbreak)) hquote⟩
  · rw [List.forall_mem_cons, List.forall_mem_singleton]
    exact ⟨.of_isWord hword, .literal (Literal.isBody_encodeBody t)⟩
  · exact Recognizer.lineFacts_setter_of_spelling hsets hid ht (Recognizer.find?_spelling hno number)

end Call

end Says

end Extraction

end LvglForest
