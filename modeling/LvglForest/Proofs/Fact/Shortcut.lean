import LvglForest.Proofs.Fact.Extraction
import LvglForest.Proofs.Source.Pattern

/-!
# Lines that are passed over

Lines without `lv_` are passed over before any recognizer sees them. For any registry this loses no
event of a source exactly if the recognizers would be silent on those lines of it
(`Extraction.allEvents_eq_iff`). The recognizers of the library are silent on all such lines, since
the names that they look for start with `lv_` (`Recognizer.isSilent_standard`). So reading every line
makes no difference (`Extraction.allFacts_standard`).
-/

namespace LvglForest

/-! ## Recognizers -/

namespace Recognizer

/-- A recognizer that finds nothing in code without `lv_`, and does not fail on it either. -/
def IsSilent (r : Recognizer) : Prop :=
  ∀ code number, Extraction.mayCall code = false → r.run code number = .ok none

/-- A declaration names the type of widgets. -/
theorem infix_of_declared? {line id : Text} (h : declared? line = some id) :
    ("lv_" : Text) <:+: line := by
  have htype : ("lv_" : Text) <+: ("lv_obj_t" : Text) := by decide
  have hprefix {s r : Text} (hr : ("lv_obj_t" : Text).isPrefixOf? s = some r) :
      ("lv_" : Text) <+: s :=
    htype.trans ⟨r, List.isPrefixOf?_eq_some_iff_append_eq.1 hr⟩
  unfold declared? at h
  simp only [Option.bind_eq_bind, Option.bind_eq_some_iff] at h
  obtain ⟨r, hr, -⟩ := h
  have hr := hprefix hr
  -- The type stands at the start of the line or behind `static` and blanks.
  split at hr
  · next p t hstatic =>
    split at hr
    · have hline := List.isPrefixOf?_eq_some_iff_append_eq.1 hstatic
      have hsuffix : Text.stripStart t <:+ line := by
        refine (List.dropWhile_suffix _).trans ((List.suffix_cons p t).trans ?_)
        exact ⟨_, hline⟩
      exact hr.isInfix.trans hsuffix.isInfix
    · exact hr.isInfix
  · exact hr.isInfix

theorem isSilent_declaration : declaration.IsSilent := by
  intro code number hcode
  have hnone : declared? code = none := by
    rw [Option.eq_none_iff_forall_ne_some]
    intro id hid
    exact Text.hasInfix_eq_false_iff.1 hcode (infix_of_declared? hid)
  show Except.ok ((declared? code).map _) = .ok none
  rw [hnone]
  rfl

/-- Calls of functions whose names start with `lv_` are found in no other code. -/
theorem isSilent_ofCall {pattern : CallPattern} (hname : ("lv_" : Text) <+: pattern.name.first)
    {name : Except Fault Text} {read : Call → Except Fault (Option (Text × Assertion))}
    {remarks : Text → Int → List Text} :
    IsSilent { name, run := ofCall pattern read, remarks } := by
  intro code number hcode
  have hnot : ¬ pattern.name.first <:+: code := by
    intro h
    exact Text.hasInfix_eq_false_iff.1 hcode (hname.isInfix.trans h)
  show ofCall pattern read code number = .ok none
  rw [ofCall, CallPattern.find?, CallPattern.search?_of_not_infix hnot]

/-- **Every recognizer of the library is silent on code without `lv_`.** -/
theorem isSilent_standard {c : Category} {r : Recognizer}
    (hr : r ∈ Registry.standard.recognizers c) : r.IsSilent := by
  cases c <;> simp only [Registry.standard, List.mem_cons, List.not_mem_nil, or_false] at hr
  case declaration =>
    subst hr
    exact isSilent_declaration
  case creation =>
    subst hr
    exact isSilent_ofCall (by decide)
  case property => obtain rfl | rfl | rfl | rfl := hr <;> exact isSilent_ofCall (by decide)
  case style => obtain rfl | rfl := hr <;> exact isSilent_ofCall (by decide)
  case layout => obtain rfl | rfl | rfl := hr <;> exact isSilent_ofCall (by decide)

end Recognizer

/-! ## Lines -/

namespace Registry

theorem tryInTurn_eq_nil {line : Text} {number : Int} {rs : List Recognizer}
    (h : ∀ r ∈ rs, r.run line number = .ok none) : tryInTurn line number rs = [] := by
  induction rs with
  | nil => rfl
  | cons r rs ih =>
    rw [List.forall_mem_cons] at h
    rw [tryInTurn, h.1]
    exact ih h.2

/-- Nothing happens on a line where every recognizer is silent. -/
theorem lineEvents_eq_nil {registry : Registry}
    (h : ∀ c, ∀ r ∈ registry.recognizers c, r.IsSilent) {code : Text}
    (hcode : Extraction.mayCall code = false) (number : Int) :
    registry.lineEvents code number = [] := by
  rw [lineEvents, List.flatMap_eq_nil_iff]
  intro c _
  apply tryInTurn_eq_nil
  intro r hr
  exact h c r hr code number hcode

end Registry

/-! ## Sources -/

namespace Extraction

/-- What happens while every line of a source text is read. -/
def allEvents (registry : Registry) (source : Text) : List Event :=
  (codeLines source.lines).flatMap fun (number, code) => registry.lineEvents code number

/-- The facts of a source text of which every line is read. -/
def allFacts (registry : Registry) (source : Text) : List Fact :=
  (allEvents registry source).filterMap Event.fact?

theorem length_flatMap_filter_le {α β : Type} (p : α → Bool) (f : α → List β) (l : List α) :
    ((l.filter p).flatMap f).length ≤ (l.flatMap f).length := by
  induction l with
  | nil => exact Nat.le_refl _
  | cons a l ih =>
    rw [List.filter_cons, List.flatMap_cons, List.length_append]
    split
    · rw [List.flatMap_cons, List.length_append]
      omega
    · omega

/-- What is left out of a concatenation makes no difference exactly if it is empty. -/
theorem flatMap_filter_eq_iff {α β : Type} {p : α → Bool} {f : α → List β} {l : List α} :
    l.flatMap f = (l.filter p).flatMap f ↔ ∀ a ∈ l, p a = false → f a = [] := by
  induction l with
  | nil => simp
  | cons a l ih =>
    rw [List.filter_cons, List.flatMap_cons, List.forall_mem_cons, ← ih]
    by_cases hp : p a = true
    · simp [hp]
    · rw [if_neg hp]
      constructor
      · intro h
        have hlength := congrArg List.length h
        have hle := length_flatMap_filter_le p f l
        rw [List.length_append] at hlength
        have hnil : f a = [] := List.length_eq_zero_iff.1 (by omega)
        rw [hnil, List.nil_append] at h
        exact ⟨fun _ => hnil, h⟩
      · rintro ⟨hnil, h⟩
        rw [hnil (Bool.eq_false_iff.2 hp), List.nil_append, h]

/-- **Passing over lines loses no event** exactly if nothing would happen on them. -/
theorem allEvents_eq_iff {registry : Registry} {source : Text} :
    allEvents registry source = events registry source ↔
      ∀ l ∈ codeLines source.lines, mayCall l.2 = false → registry.lineEvents l.2 l.1 = [] :=
  flatMap_filter_eq_iff

/-- **Passing over the lines without `lv_` loses nothing.** On such a line every recognizer of the
library finds nothing and does not fail, whatever the number of the line. So a source text of which
every line is read gives the same facts in the same order, and the same failures and remarks. -/
theorem allFacts_standard :
    (∀ code, mayCall code = false → ∀ c, ∀ r ∈ Registry.standard.recognizers c, ∀ number,
      r.run code number = .ok none) ∧
    ∀ source, allFacts .standard source = facts .standard source ∧
      allEvents .standard source = events .standard source := by
  have hsilent : ∀ c, ∀ r ∈ Registry.standard.recognizers c, r.IsSilent :=
    fun _ _ => Recognizer.isSilent_standard
  refine ⟨fun code hcode c r hr number => hsilent c r hr code number hcode, fun source => ?_⟩
  have hevents : allEvents .standard source = events .standard source :=
    allEvents_eq_iff.2 fun l _ hl => Registry.lineEvents_eq_nil hsilent hl l.1
  refine ⟨?_, hevents⟩
  rw [allFacts, facts, hevents]

/-- A line that only looks like a creation and one that is none, between lines that hold calls. -/
theorem allFacts_standard_mixed :
    let code : Text := "a = Lv_obj_create(LV_PCT(50));"
    let source : Text :=
      "a = lv_obj_create(parent);\na = Lv_obj_create(LV_PCT(50));\n\nlv_obj_center(a);"
    mayCall code = false ∧ Recognizer.creation.run code 2 = .ok none ∧
      allFacts .standard source =
        [⟨"a", .integer 1, .created (.text "container") "obj" (.text "parent")⟩,
          ⟨"a", .integer 4, .center⟩] := by
  repeat rw [Text.ofString_ofList]
  intro code source
  have hcode : mayCall code = false := by decide
  have hall := allFacts_standard
  refine ⟨hcode, hall.1 code hcode .creation _ List.mem_cons_self 2, ?_⟩
  rw [(hall.2 source).1]
  rfl

end Extraction

end LvglForest
