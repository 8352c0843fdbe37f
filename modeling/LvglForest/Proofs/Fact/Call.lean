import LvglForest.Code.Statement
import LvglForest.Proofs.Fact.Extraction
import LvglForest.Proofs.Source.Pattern

/-!
# Lines with one call

A line that consists of one call says what the name and the arguments of that call say, provided
that nothing is found behind the opening parenthesis (`Registry.lineFacts_call`): each recognizer
either accepts the name and reads the arguments, or finds nothing. What a setter says is so decided
by `Recognizer.setting?`, `Recognizer.styling?` and `Recognizer.placing?`, one for each category
that a setter can belong to.
-/

namespace LvglForest

/-- All that a word can hold of the start of a line lies in the first word of the line. -/
theorem Text.word_prefix {u w r : Text} (hu : ∀ p ∈ u, p.isWord = true) (hr : r.EndsWord)
    (h : u <+: w ++ r) : u <+: w := by
  rcases List.prefix_or_prefix_of_prefix h (List.prefix_append w r) with hw | ⟨v, rfl⟩
  · exact hw
  · rw [List.prefix_append_right_inj] at h
    cases v with
    | nil => simp
    | cons p v =>
      obtain ⟨s, rfl⟩ := h
      have hp := hr p rfl
      rw [hu p (by simp)] at hp
      cases hp

theorem Statement.text_call (f : Text) (args : List Text) :
    (Statement.call f args).text =
      f ++ .char '(' :: (Text.join ", " args ++ (");" : Text)) := by
  rw [text]
  simp only [List.append_assoc]
  rfl

namespace Recognizer

/-! ## Declarations -/

/-- A line that starts with a word and does not go on with the star of a pointer. -/
theorem pointer?_of_isWord {w r s : Text} {q : CodePoint} (hw : w.IsWord) (hr : r.EndsWord)
    (hs : r.stripStart = q :: s) (hq : q ≠ .char '*') :
    (("lv_obj_t" : Text).isPrefixOf? (w ++ r)).bind (skip? "*") = none := by
  cases hpre : ("lv_obj_t" : Text).isPrefixOf? (w ++ r) with
  | none => rfl
  | some r' =>
    have heq := List.isPrefixOf?_eq_some_iff_append_eq.1 hpre
    obtain ⟨v, rfl⟩ := Text.word_prefix (by decide) hr ⟨r', heq⟩
    rw [List.append_assoc, List.append_cancel_left_eq] at heq
    subst heq
    rw [Option.bind_some, skip?]
    cases v with
    | nil =>
      rw [List.nil_append, hs]
      simp [Text.ofString, List.isPrefixOf?, hq.symm]
    | cons c v =>
      have hc := hw.all c (by simp)
      have hstar : c ≠ .char '*' := by rintro rfl; cases hc
      rw [List.cons_append, Text.stripStart, List.dropWhile_cons, CodePoint.isBlank_of_isWord hc]
      simp [Text.ofString, List.isPrefixOf?, hstar.symm]

/-- Such a line declares nothing, even if the word is `static`. -/
theorem declared?_of_isWord {w r s : Text} {q : CodePoint} (hw : w.IsWord) (hr : r.EndsWord)
    (hs : r.stripStart = q :: s) (hq : q ≠ .char '*') (hl : w = "static" → q ≠ .char 'l') :
    declared? (w ++ r) = none := by
  have hdirect := pointer?_of_isWord hw hr hs hq
  unfold declared?
  simp only [bind]
  split
  · next p t hstatic =>
    split
    · next hp =>
      have heq := List.isPrefixOf?_eq_some_iff_append_eq.1 hstatic
      obtain ⟨v, rfl⟩ := Text.word_prefix (by decide) hr ⟨_, heq⟩
      rw [List.append_assoc, List.append_cancel_left_eq] at heq
      cases v with
      | cons c v =>
        rw [List.cons_append, List.cons.injEq] at heq
        have hc := CodePoint.isBlank_of_isWord (hw.all c (by simp))
        rw [← heq.1, hp] at hc
        cases hc
      | nil =>
        rw [List.nil_append] at heq
        have hl := hl (List.append_nil _)
        have hstrip : Text.stripStart t = q :: s := by
          rw [← hs, ← heq, Text.stripStart, Text.stripStart, List.dropWhile_cons, if_pos hp]
        rw [hstrip]
        simp [Text.ofString, List.isPrefixOf?, hl.symm]
    · rw [← Option.bind_assoc, hdirect]
      rfl
  · rw [← Option.bind_assoc, hdirect]
    rfl

theorem find?_declaration {line : Text} (h : declared? line = none) (number : Int) :
    declaration.find? line number = none := by
  show ((declared? line).map _) = none
  rw [h]
  rfl

theorem find?_declaration_call {f : Text} (hf : f.IsWord) (args : List Text) (number : Int) :
    declaration.find? (Statement.call f args).text number = none := by
  refine find?_declaration ?_ number
  rw [Statement.text_call]
  exact declared?_of_isWord hf (Text.endsWord_cons rfl _) rfl (by decide) fun _ => by decide

/-! ## Readings -/

/-- What a reader makes of a call, if a pattern accepts its name. -/
def reading (n : NamePattern) (read : Call → Except Fault (Option (Text × Assertion))) (f : Text)
    (args : List Text) : Option (Text × Assertion) :=
  (n.groups? f).bind fun gs => (read ⟨f, gs, args⟩).toOption.join

/-- What a call says about a text, a size, a number or a range. -/
def setting? (f : Text) (args : List Text) : Option (Text × Assertion) :=
  (reading textPattern.name readText f args).or <|
    (reading sizePattern.name readSize f args).or <|
      (reading valuePattern.name readValue f args).or <|
        reading rangePattern.name readRange f args

/-- What a call says about a style. -/
def styling? (f : Text) (args : List Text) : Option (Text × Assertion) :=
  (reading knownStylePattern.name readKnownStyle f args).or <|
    reading anyStylePattern.name readOtherStyle f args

/-- What a call says about a place. -/
def placing? (f : Text) (args : List Text) : Option (Text × Assertion) :=
  (reading alignPattern.name readAlign f args).or <|
    (reading centerPattern.name readCenter f args).or <|
      reading positionPattern.name readPosition f args

/-- All that a call says. -/
def saying (f : Text) (args : List Text) : List (Text × Assertion) :=
  (setting? f args).toList ++ (styling? f args).toList ++ (placing? f args).toList

/-- What is said in a line of a given number. -/
def said (number : Int) : Text × Assertion → Fact
  | (identifier, a) => ⟨identifier, .integer number, a⟩

/-- The call patterns of all recognizers. -/
def patterns : List CallPattern :=
  [creationPattern, textPattern, sizePattern, valuePattern, rangePattern, knownStylePattern,
    anyStylePattern, alignPattern, centerPattern, positionPattern]

/-- Nothing is found behind the opening parenthesis of a call whose name a pattern rejects. -/
def QuietArguments (f : Text) (args : List Text) : Prop :=
  ∀ pattern ∈ patterns, pattern.Rejects f →
    pattern.search? false (Text.join ", " args ++ (");" : Text)) = none

section Line

variable {f a : Text} {args : List Text} (hf : f.IsWord)
  (hargs : ∀ x ∈ a :: args, Arguments.IsArgument x)
include hf hargs

theorem find?_reading {n : NamePattern}
    (hquiet : (CallPattern.call n).Rejects f →
      (CallPattern.call n).search? false (Text.join ", " (a :: args) ++ (");" : Text)) = none)
    (read : Call → Except Fault (Option (Text × Assertion))) (number : Int) :
    (ofCall (.call n) read (Statement.call f (a :: args)).text number).toOption.join =
      (reading n read f (a :: args)).map (said number) := by
  rw [toOption_ofCall, Statement.text_call, reading]
  cases hgs : n.groups? f with
  | none =>
    have hsearch : (CallPattern.call n).search? false
        (f ++ .char '(' :: (Text.join ", " (a :: args) ++ (");" : Text))) = none := by
      rw [CallPattern.search?_rejected (.call n) hf hgs, hquiet hgs]
    rw [CallPattern.find?, hsearch]
    rfl
  | some gs =>
    have hfind : (CallPattern.call n).find?
        (f ++ .char '(' :: (Text.join ", " (a :: args) ++ (");" : Text))) =
          some ⟨f, gs, a :: args⟩ := CallPattern.find?_call hf hgs hargs [.char ';']
    rw [hfind]
    rfl

end Line

end Recognizer

/-- **The facts of a line with one call.** -/
theorem Registry.lineFacts_call {f a : Text} {args : List Text} (hf : f.IsWord)
    (hargs : ∀ x ∈ a :: args, Arguments.IsArgument x)
    (hquiet : Recognizer.QuietArguments f (a :: args)) (number : Int) :
    standard.lineFacts (Statement.call f (a :: args)).text number =
      (Recognizer.saying f (a :: args)).map (Recognizer.said number) := by
  simp only [Recognizer.QuietArguments, Recognizer.patterns, List.forall_mem_cons] at hquiet
  obtain ⟨hcreation, htext, hsize, hvalue, hrange, hknown, hany, halign, hcenter, hposition, -⟩ :=
    hquiet
  have hcreated : Recognizer.creation.find? (Statement.call f (a :: args)).text number = none := by
    show (Recognizer.ofCall _ _ _ _).toOption.join = none
    rw [Recognizer.toOption_ofCall, Statement.text_call, CallPattern.find?,
      CallPattern.search?_rejected Recognizer.creationPattern hf trivial, hcreation trivial]
    rfl
  have hor (x y : Option (Text × Assertion)) : (x.or y).map (Recognizer.said number) =
      (x.map (Recognizer.said number)).or (y.map (Recognizer.said number)) := by
    cases x <;> rfl
  have hlist (x : Option (Text × Assertion)) :
      x.toList.map (Recognizer.said number) = (x.map (Recognizer.said number)).toList := by
    cases x <;> rfl
  rw [lineFacts_standard, Recognizer.find?_declaration_call hf, hcreated]
  simp only [Recognizer.findFirst?_cons, Recognizer.findFirst?_nil, Option.or_none,
    Recognizer.saying, List.map_append, hlist, Recognizer.setting?, Recognizer.styling?, Recognizer.placing?, hor]
  rw [← Recognizer.find?_reading hf hargs (n := Recognizer.textPattern.name) htext
      Recognizer.readText,
    ← Recognizer.find?_reading hf hargs (n := Recognizer.sizePattern.name) hsize
      Recognizer.readSize,
    ← Recognizer.find?_reading hf hargs (n := Recognizer.valuePattern.name) hvalue
      Recognizer.readValue,
    ← Recognizer.find?_reading hf hargs (n := Recognizer.rangePattern.name) hrange
      Recognizer.readRange,
    ← Recognizer.find?_reading hf hargs (n := Recognizer.knownStylePattern.name) hknown
      Recognizer.readKnownStyle,
    ← Recognizer.find?_reading hf hargs (n := Recognizer.anyStylePattern.name) hany
      Recognizer.readOtherStyle,
    ← Recognizer.find?_reading hf hargs (n := Recognizer.alignPattern.name) halign
      Recognizer.readAlign,
    ← Recognizer.find?_reading hf hargs (n := Recognizer.centerPattern.name) hcenter
      Recognizer.readCenter,
    ← Recognizer.find?_reading hf hargs (n := Recognizer.positionPattern.name) hposition
      Recognizer.readPosition]
  rfl

end LvglForest
