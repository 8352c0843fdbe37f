import LvglForest.Proofs.Source.Operand

/-!
# Sizes in documents

What is written for a size is read as this size again if the size was read before, whatever value it
was read from (`Size.isKept_ofValue`): the text of a value is trimmed, and what a trimmed text gives
is written as this text or as an integer. A size that source gives is kept too, unless it is an
expression that looks like a percentage (`Size.isKept_ofSource`).
-/

namespace LvglForest.Size

open Arguments

/-- What is written for a size in a document is read as this size. -/
def IsKept (s : Size) : Prop := ∃ v, s.toValue = .ok v ∧ ofValue v = .ok s

/-- An expression whose last character is a percent sign. -/
def EndsInPercent (s : Size) : Prop := ∃ t, s = .token t ∧ t.getLast? = some (.char '%')

theorem isKept_pixels (n : Int) : (pixels n).IsKept := ⟨_, rfl, rfl⟩

theorem isKept_auto : auto.IsKept := ⟨_, rfl, rfl⟩

theorem ofText_strip (t : Text) : ofText t.strip = ofText t := by
  rw [ofText, Text.strip_eq_self (Text.isTrimmed_strip t), ofText]

/-- A percentage is a trimmed text, and its number is read back. -/
theorem ofText_percent {n : Int} (h : Decimal.Converts n) :
    ofText (Decimal.ofInt n ++ "%") = .percent (.integer n) := by
  have hargument := (IsToken.ofInt n).isArgument
  obtain ⟨p, t, hp⟩ := List.exists_cons_of_ne_nil hargument.ne_nil
  have htrimmed : Text.IsTrimmed (Decimal.ofInt n ++ "%") := by
    rw [hp]
    exact .wrap (hargument.trimmed.head p (by rw [hp]; rfl)) rfl t
  have hlast : (Decimal.ofInt n ++ "%").getLast? = some (.char '%') := List.getLast?_concat
  have hdrop : (Decimal.ofInt n ++ "%").dropLast = Decimal.ofInt n := List.dropLast_concat
  rw [ofText, Text.strip_eq_self htrimmed]
  simp only [hlast, if_true, hdrop, Decimal.read_ofInt h]

theorem isKept_percent {n : Int} (h : Decimal.Converts n) : (percent (.integer n)).IsKept := by
  have hdisplay : (Value.integer n).display = .ok (Decimal.ofInt n) := Decimal.write_of_converts h
  refine ⟨.text (Decimal.ofInt n ++ "%"), ?_, congrArg Except.ok (ofText_percent h)⟩
  rw [toValue, display, hdisplay]
  · rfl
  · exact fun v hv => nomatch hv

/-- What a text gives is kept. -/
theorem isKept_ofText (t : Text) : (ofText t).IsKept := by
  have htoken : ofText t = .token t.strip → (ofText t).IsKept := fun h => by
    rw [h]
    exact ⟨.text t.strip, rfl, congrArg Except.ok ((ofText_strip t).trans h)⟩
  by_cases hlast : t.strip.getLast? = some (.char '%')
  · cases hread : Decimal.read t.strip.dropLast with
    | ok n =>
      have h : ofText t = .percent (.integer n) := by simp [ofText, hlast, hread]
      rw [h]
      exact isKept_percent (Decimal.converts_of_read hread)
    | error f => exact htoken (by simp [ofText, hlast, hread])
  · cases hread : Decimal.read t.strip with
    | ok n =>
      have h : ofText t = .pixels n := by simp [ofText, hlast, hread]
      rw [h]
      exact isKept_pixels n
    | error f => exact htoken (by simp [ofText, hlast, hread])

/-- **A size of a document is kept.** -/
theorem isKept_ofValue {v : Value} {s : Size} (h : ofValue v = .ok s) : s.IsKept := by
  have htext : v.display.map ofText = .ok s → s.IsKept := fun h => by
    cases hdisplay : v.display with
    | error f =>
      rw [hdisplay] at h
      cases h
    | ok t =>
      rw [hdisplay] at h
      cases h
      exact isKept_ofText t
  cases v with
  | null | truth b =>
    cases h
    exact isKept_auto
  | integer n =>
    cases h
    exact isKept_pixels n
  | real x | text t | list vs | record fs => exact htext h

/-- **A size of source is kept** unless it is an expression that ends in a percent sign. -/
theorem isKept_ofSource {t : Text} {s : Size} (h : ofSource t = .ok s) (hs : ¬ s.EndsInPercent) :
    s.IsKept := by
  obtain rfl | ⟨n, hn, rfl⟩ | rfl := ofSource_cases h
  · exact isKept_auto
  · exact isKept_percent hn
  · unfold Operand.ofSource at hs ⊢
    cases hread : Decimal.read t.strip.strip with
    | ok n => exact isKept_pixels n
    | error f =>
      simp only [hread] at hs
      have hlast : t.strip.strip.getLast? ≠ some (.char '%') := fun hlast => hs ⟨_, rfl, hlast⟩
      have htext : ofText t.strip = .token t.strip.strip := by simp [ofText, hlast, hread]
      have hkept := isKept_ofText t.strip
      rwa [htext] at hkept

end LvglForest.Size
