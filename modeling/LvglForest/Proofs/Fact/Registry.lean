import LvglForest.Fact.Registry
import Mathlib.Data.List.Basic

/-!
# The facts of a line, category by category

What a recognizer finds does not depend on why it may fail (`Recognizer.find?`). The facts of a line
are what the first successful recognizer of each category finds, in the order of the categories
(`Registry.lineFacts_eq`, and `Registry.lineFacts_standard` for the recognizers of the library).
-/

namespace LvglForest

namespace Recognizer

/-- What a recognizer finds in a line. A failure finds nothing. -/
def find? (r : Recognizer) (line : Text) (number : Int) : Option Fact :=
  (r.run line number).toOption.join

theorem find?_eq_some_iff {r : Recognizer} {line : Text} {number : Int} {f : Fact} :
    r.find? line number = some f ↔ r.run line number = .ok (some f) := by
  rw [find?]
  rcases r.run line number with fault | none | g <;> simp [Except.toOption]

theorem find?_eq_none_iff {r : Recognizer} {line : Text} {number : Int} :
    r.find? line number = none ↔
      r.run line number = .ok none ∨ ∃ fault, r.run line number = .error fault := by
  rw [find?]
  rcases r.run line number with fault | none | g <;> simp [Except.toOption]

/-- What the first successful recognizer finds. -/
def findFirst? (rs : List Recognizer) (line : Text) (number : Int) : Option Fact :=
  rs.findSome? fun r => r.find? line number

theorem findFirst?_cons (r : Recognizer) (rs : List Recognizer) (line : Text) (number : Int) :
    findFirst? (r :: rs) line number = (r.find? line number).or (findFirst? rs line number) := by
  rw [findFirst?, List.findSome?_cons]
  cases r.find? line number <;> rfl

theorem findFirst?_nil (line : Text) (number : Int) : findFirst? [] line number = none := rfl

/-- What is found in a line through a call pattern. -/
theorem toOption_ofCall (pattern : CallPattern)
    (read : Call → Except Fault (Option (Text × Assertion))) (line : Text) (number : Int) :
    (ofCall pattern read line number).toOption.join =
      ((pattern.find? line).bind fun call => (read call).toOption.join).map
        fun (identifier, a) => ⟨identifier, .integer number, a⟩ := by
  unfold ofCall
  cases pattern.find? line with
  | none => rfl
  | some call =>
    simp only [Option.bind_some]
    cases read call with
    | error f => rfl
    | ok found => cases found <;> rfl

end Recognizer

namespace Registry

theorem fact?_tryInTurn (line : Text) (number : Int) (rs : List Recognizer) :
    (tryInTurn line number rs).filterMap Event.fact? =
      (Recognizer.findFirst? rs line number).toList := by
  unfold Recognizer.findFirst?
  induction rs with
  | nil => rfl
  | cons r rs ih =>
    rw [tryInTurn, List.findSome?_cons, Recognizer.find?]
    cases r.run line number with
    | error f => exact ih
    | ok found =>
      cases found with
      | none => exact ih
      | some fact =>
        have hremarks (ts : List Text) : (ts.map Event.remark).filterMap Event.fact? = [] := by
          induction ts with
          | nil => rfl
          | cons t ts iht => exact iht
        simp only [List.filterMap_append, hremarks]
        rfl

/-- **The facts of a line**: at most one of each category. -/
theorem lineFacts_eq (registry : Registry) (line : Text) (number : Int) :
    registry.lineFacts line number =
      Category.all.filterMap fun c =>
        Recognizer.findFirst? (registry.recognizers c) line number := by
  rw [lineFacts, lineEvents, List.filterMap_flatMap]
  simp only [fact?_tryInTurn]
  rw [List.filterMap_eq_flatMap_toList]

theorem lineFacts_standard (line : Text) (number : Int) :
    standard.lineFacts line number =
      (Recognizer.declaration.find? line number).toList ++
      (Recognizer.creation.find? line number).toList ++
      (Recognizer.findFirst? [.text, .size, .value, .range] line number).toList ++
      (Recognizer.findFirst? [.knownStyle, .otherStyle] line number).toList ++
      (Recognizer.findFirst? [.align, .center, .position] line number).toList := by
  have hone (r : Recognizer) :
      Recognizer.findFirst? [r] line number = r.find? line number := by
    rw [Recognizer.findFirst?_cons, Recognizer.findFirst?_nil, Option.or_none]
  rw [lineFacts_eq, Category.all, List.filterMap_eq_flatMap_toList]
  simp only [List.flatMap_cons, List.flatMap_nil, standard, hone, List.append_nil,
    List.append_assoc]

end Registry

end LvglForest
