import LvglForest.Proofs.Fact.Call

/-!
# Code in a text

The setter of a text says what its literal stands for, whatever that is: comment marks, parentheses
and commas inside the literal are passed over. The call patterns, however, are looked for in the
whole line, so the text itself is searched for a creation, a style and a place, and what it spells
is found (`Recognizer.lineFacts_setter`). A text that does not name `lv_` spells nothing
(`Recognizer.find?_spelling`).
-/

namespace LvglForest

/-- Before a literal that comes last, nothing is found. -/
theorem CallPattern.search?_literal (pattern : CallPattern) {id : Text} (hid : id.IsWord)
    (t : Text) :
    pattern.search? false (Text.join ", " [id, Literal.encode t] ++ (");" : Text)) =
      pattern.search? false (Literal.encodeBody t ++ ("\");" : Text)) := by
  have hjoin : Text.join ", " [id, Literal.encode t] ++ (");" : Text) =
      id ++ .char ',' :: .char ' ' :: .char '"' :: (Literal.encodeBody t ++ ("\");" : Text)) := by
    simp only [Text.join, Literal.encode, List.append_assoc, List.cons_append]
    rfl
  rw [hjoin, PassedBy.of_isWord hid _ _ (.inl rfl), search?_cons _ rfl, search?_cons _ rfl]

namespace Recognizer

/-- A name of a setter of texts, which no recognizer of another category accepts. -/
structure SetsText (f : Text) : Prop where
  word : f.IsWord
  accepted : ∃ gs, textPattern.name.groups? f = some gs
  rejected : ∀ pattern ∈ [knownStylePattern, anyStylePattern, alignPattern, centerPattern,
    positionPattern], pattern.Rejects f

/-- What stands in the line of a setter of texts behind the opening quote. -/
def quoted (t : Text) : Text := Literal.encodeBody t ++ "\");"

section Setter

variable {f id t : Text} (hf : SetsText f) (hid : id.isIdentifier = true)
include hf hid

/-- A pattern that rejects the setter finds what the text spells. -/
theorem find?_setter {pattern : CallPattern} (hrej : pattern.Rejects f)
    (read : Call → Except Fault (Option (Text × Assertion))) (number : Int) :
    (ofCall pattern read (Statement.call f [id, Literal.encode t]).text number).toOption.join =
      (ofCall pattern read (quoted t) number).toOption.join := by
  have hfind : pattern.find? (Statement.call f [id, Literal.encode t]).text =
      pattern.find? (quoted t) := by
    rw [CallPattern.find?, CallPattern.find?, Statement.text_call,
      CallPattern.search?_rejected pattern hf.word hrej,
      CallPattern.search?_literal pattern (Text.isWord_of_isIdentifier hid), quoted]
  rw [toOption_ofCall, toOption_ofCall, hfind]

theorem find?_text_setter (ht : Literal.IsDecoded t) (number : Int) :
    text.find? (Statement.call f [id, Literal.encode t]).text number =
      some ⟨id, .integer number, .text (.text t)⟩ := by
  have hargs : ∀ x ∈ [id, Literal.encode t], Arguments.IsArgument x := by
    rw [List.forall_mem_cons, List.forall_mem_singleton]
    exact ⟨.of_isWord (Text.isWord_of_isIdentifier hid), .literal (Literal.isBody_encodeBody t)⟩
  obtain ⟨gs, hgs⟩ := hf.accepted
  have hfind : textPattern.find? (Statement.call f [id, Literal.encode t]).text =
      some ⟨f, gs, [id, Literal.encode t]⟩ := by
    rw [Statement.text_call]
    exact CallPattern.find?_call hf.word hgs hargs [.char ';']
  show (ofCall textPattern readText _ number).toOption.join = _
  rw [toOption_ofCall, hfind, Option.bind_some, readText]
  simp only [ht.decode?_encode, Except.map, Option.bind_some, about, hid, if_true]
  rfl

/-- **The facts of a line that sets a text**: the text, and the creation, the style and the place
that the text spells. -/
theorem lineFacts_setter (ht : Literal.IsDecoded t) (number : Int) :
    Registry.standard.lineFacts (Statement.call f [id, Literal.encode t]).text number =
      (creation.find? (quoted t) number).toList ++
      [⟨id, .integer number, .text (.text t)⟩] ++
      (findFirst? [.knownStyle, .otherStyle] (quoted t) number).toList ++
      (findFirst? [.align, .center, .position] (quoted t) number).toList := by
  have hcreation : creation.find? (Statement.call f [id, Literal.encode t]).text number =
      creation.find? (quoted t) number := by
    have hcreates : creationPattern.Rejects f := trivial
    exact find?_setter hf hid hcreates readCreation number
  have hrejected := hf.rejected
  simp only [List.forall_mem_cons] at hrejected
  obtain ⟨hknown, hany, halign, hcenter, hposition, -⟩ := hrejected
  have hknownStyle : knownStyle.find? (Statement.call f [id, Literal.encode t]).text number =
      knownStyle.find? (quoted t) number := find?_setter hf hid hknown readKnownStyle number
  have hotherStyle : otherStyle.find? (Statement.call f [id, Literal.encode t]).text number =
      otherStyle.find? (quoted t) number := find?_setter hf hid hany readOtherStyle number
  have halign : align.find? (Statement.call f [id, Literal.encode t]).text number =
      align.find? (quoted t) number := find?_setter hf hid halign readAlign number
  have hcenter : center.find? (Statement.call f [id, Literal.encode t]).text number =
      center.find? (quoted t) number := find?_setter hf hid hcenter readCenter number
  have hposition : position.find? (Statement.call f [id, Literal.encode t]).text number =
      position.find? (quoted t) number := find?_setter hf hid hposition readPosition number
  rw [Registry.lineFacts_standard, find?_declaration_call hf.word, hcreation, findFirst?_cons,
    find?_text_setter hf hid ht]
  simp only [findFirst?_cons, hknownStyle, hotherStyle, halign, hcenter, hposition]
  rfl

end Setter

/-- A text that does not name `lv_` spells nothing. -/
theorem find?_quoted (pattern : CallPattern) (hfirst : ("lv_" : Text) <+: pattern.name.first)
    {t : Text} (ht : ¬ ("lv_" : Text) <:+: t)
    (read : Call → Except Fault (Option (Text × Assertion))) (number : Int) :
    (ofCall pattern read (quoted t) number).toOption.join = none := by
  have hquoted : ¬ ("lv_" : Text) <:+: quoted t := Literal.not_infix_encodeBody ht (by decide)
  have hsearch : pattern.search? false (quoted t) = none :=
    CallPattern.search?_of_not_infix (fun h => hquoted (hfirst.isInfix.trans h)) false
  rw [toOption_ofCall, CallPattern.find?, hsearch]
  rfl

/-- The recognizers that find what a text spells. -/
def spelling : List Recognizer := [creation, knownStyle, otherStyle, align, center, position]

theorem find?_spelling {t : Text} (ht : ¬ ("lv_" : Text) <:+: t) (number : Int) :
    ∀ r ∈ spelling, r.find? (quoted t) number = none := by
  simp only [spelling, List.forall_mem_cons]
  exact ⟨find?_quoted creationPattern (by decide) ht readCreation number,
    find?_quoted knownStylePattern (by decide) ht readKnownStyle number,
    find?_quoted anyStylePattern (by decide) ht readOtherStyle number,
    find?_quoted alignPattern (by decide) ht readAlign number,
    find?_quoted centerPattern (by decide) ht readCenter number,
    find?_quoted positionPattern (by decide) ht readPosition number, by simp⟩

/-- Where a text spells nothing, its setter says the text alone. -/
theorem lineFacts_setter_of_spelling {f id t : Text} (hf : SetsText f)
    (hid : id.isIdentifier = true) (ht : Literal.IsDecoded t) {number : Int}
    (hspell : ∀ r ∈ spelling, r.find? (quoted t) number = none) :
    Registry.standard.lineFacts (Statement.call f [id, Literal.encode t]).text number =
      [⟨id, .integer number, .text (.text t)⟩] := by
  simp only [spelling, List.forall_mem_cons] at hspell
  obtain ⟨hcreation, hknown, hother, halign, hcenter, hposition, -⟩ := hspell
  rw [lineFacts_setter hf hid ht]
  simp only [findFirst?_cons, findFirst?_nil, hcreation, hknown, hother, halign, hcenter,
    hposition]
  rfl

end Recognizer

end LvglForest
