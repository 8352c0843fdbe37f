import LvglForest.Proofs.Fact.Line
import Mathlib

/-!
# The text of a label

In the line that sets the text of a label, what the text spells is found beside the text
(`facts_labelLine`); only a text in which the recognizers of creations, styles and places find
nothing is inert, such as one that does not name `lv_`.
-/

namespace LvglForest

namespace Extraction

/-- The line that sets the text of a label. -/
def labelLine (id t : Text) : Text :=
  "lv_label_set_text(" ++ id ++ ", " ++ Literal.encode t ++ ");"

theorem labelLine_eq (id t : Text) :
    labelLine id t = (Statement.call "lv_label_set_text" [id, Literal.encode t]).text := by
  have hopen : ("lv_label_set_text(" : Text) = "lv_label_set_text" ++ "(" := by decide +kernel
  rw [labelLine, hopen, Statement.text]
  simp only [Text.join, List.append_assoc]

theorem setsText_label : Recognizer.SetsText "lv_label_set_text" where
  word := .ofList (by decide)
  accepted := by
    refine ⟨["label"], ?_⟩
    repeat rw [Text.ofString_ofList]
    decide
  rejected := by
    rw [Text.ofString_ofList]
    decide

section Label

variable {id t : Text} (hid : id.isIdentifier = true)
include hid

/-- The line is read as it is. -/
theorem codeOf_labelLine : codeOf (labelLine id t) = labelLine id t ∧ IsClosed (labelLine id t) := by
  have hkept : ∀ x ∈ [id, Literal.encode t], Comment.Kept x := by
    rw [List.forall_mem_cons, List.forall_mem_singleton]
    exact ⟨.of_isWord (Text.isWord_of_isIdentifier hid), .literal (Literal.isBody_encodeBody t)⟩
  have hcode := codeOf_call (u := []) (by simp) setsText_label.word hkept
  rw [List.nil_append] at hcode
  rwa [labelLine_eq]

theorem inLine_labelLine (hline : t.InLine) : (labelLine id t).InLine := by
  have hword := Text.isWord_of_isIdentifier hid
  have hbody := Literal.inLine_encodeBody (.of_inLine hline)
  have hquote : Text.InLine [.char '"'] := by decide
  refine .append (.append (.append (.append (by decide) hword.inLine) (by decide)) ?_) (by decide)
  exact .append (.append hquote hbody) hquote

/-- The facts of the line are those of its code. -/
theorem facts_labelLine (hline : t.InLine) :
    facts .standard (labelLine id t) = Registry.standard.lineFacts
      (Statement.call "lv_label_set_text" [id, Literal.encode t]).text 1 := by
  have hmay : mayCall (labelLine id t) = true := Text.hasInfix_iff.2 ⟨[], _, rfl⟩
  have hne : labelLine id t ≠ [] := List.cons_ne_nil _ _
  obtain ⟨hcode, hclosed⟩ := codeOf_labelLine (t := t) hid
  rw [facts_of_line (inLine_labelLine hid hline) hne hclosed, hcode, factsOf, if_pos hmay,
    labelLine_eq]

/-- **When a text is inert.** The line that sets the text of a label always says that text, and
besides it exactly the creation, the style and the place that the text spells behind its opening
quote. So it says nothing but the text if and only if no recognizer of these finds anything
there. -/
theorem labelLine_inert_iff (ht : Literal.IsDecoded t) (hline : t.InLine) :
    facts .standard (labelLine id t) =
        (Recognizer.creation.find? (Recognizer.quoted t) 1).toList ++
        [⟨id, .integer 1, .text (.text t)⟩] ++
        (Recognizer.findFirst? [.knownStyle, .otherStyle] (Recognizer.quoted t) 1).toList ++
        (Recognizer.findFirst? [.align, .center, .position] (Recognizer.quoted t) 1).toList ∧
      (facts .standard (labelLine id t) = [⟨id, .integer 1, .text (.text t)⟩] ↔
        ∀ r ∈ Recognizer.spelling, r.find? (Recognizer.quoted t) 1 = none) := by
  have hfacts := Recognizer.lineFacts_setter setsText_label hid ht 1
  rw [← facts_labelLine hid hline] at hfacts
  refine ⟨hfacts, fun h => ?_, fun h => ?_⟩
  · rw [hfacts] at h
    have hlength := congrArg List.length h
    simp only [List.length_append, List.length_singleton] at hlength
    have hnone (x : Option Fact) (hx : x.toList.length = 0) : x = none := by
      cases x with
      | none => rfl
      | some f => cases hx
    have hcreation : Recognizer.creation.find? (Recognizer.quoted t) 1 = none :=
      hnone _ (by omega)
    have hstyle : Recognizer.findFirst? [.knownStyle, .otherStyle] (Recognizer.quoted t) 1 = none :=
      hnone _ (by omega)
    have hplace :
        Recognizer.findFirst? [.align, .center, .position] (Recognizer.quoted t) 1 = none :=
      hnone _ (by omega)
    rw [Recognizer.findFirst?, List.findSome?_eq_none_iff] at hstyle hplace
    simp only [List.forall_mem_cons] at hstyle hplace
    simp only [Recognizer.spelling, List.forall_mem_cons]
    exact ⟨hcreation, hstyle.1, hstyle.2.1, hplace⟩
  · rw [facts_labelLine hid hline]
    exact Recognizer.lineFacts_setter_of_spelling setsText_label hid ht h

end Label

/-- Comment marks, commas and parentheses in a text are inert. -/
theorem labelLine_inert_marks :
    facts .standard (labelLine "lbl" "a, b // (c) /* d") =
      [⟨"lbl", .integer 1, .text (.text "a, b // (c) /* d")⟩] :=
  (labelLine_inert_iff (by decide) ⟨"\"a, b // (c) /* d\"", by cbv⟩ (by decide)).2.2
    (Recognizer.find?_spelling (by decide) 1)

/-- A text that spells a creation is not. -/
theorem labelLine_not_inert :
    ¬ ∀ id t : Text, id.isIdentifier = true → Literal.IsDecoded t → t.InLine →
      facts .standard (labelLine id t) = [⟨id, .integer 1, .text (.text t)⟩] := by
  intro h
  have hdecoded : Literal.IsDecoded "x = lv_obj_create(y)" :=
    ⟨"\"x = lv_obj_create(y)\"", by cbv⟩
  have hfacts := h "lbl" "x = lv_obj_create(y)" (by decide) hdecoded (by decide)
  rw [facts_labelLine (by decide) (by decide),
    Recognizer.lineFacts_setter setsText_label (by decide) hdecoded] at hfacts
  have hlength := congrArg List.length hfacts
  have hcreation :
      (Recognizer.creation.find? (Recognizer.quoted "x = lv_obj_create(y)") 1).isSome = true := by
    repeat rw [Text.ofString_ofList]
    decide +kernel
  obtain ⟨created, hcreated⟩ := Option.isSome_iff_exists.1 hcreation
  rw [hcreated] at hlength
  simp at hlength

end Extraction

end LvglForest
