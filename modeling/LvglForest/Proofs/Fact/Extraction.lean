import LvglForest.Fact.Extraction
import LvglForest.Proofs.Fact.Registry
import LvglForest.Proofs.Source.Comment
import LvglForest.Proofs.Text.Infix
import LvglForest.Proofs.Text.Lines

/-!
# Facts line by line

The facts of a source are those of the code of its lines (`facts_eq`). Where no line leaves a block
comment open, each line is read on its own, with the number of the line (`facts_of_closed`).
-/

namespace LvglForest.Extraction

/-- The code of a line that starts outside block comments. -/
def codeOf (line : Text) : Text := (Comment.strip false (trim line)).1.strip

/-- A line that starts outside block comments ends outside them. -/
def IsClosed (line : Text) : Prop := (Comment.strip false (trim line)).2 = false

instance (line : Text) : Decidable (IsClosed line) :=
  inferInstanceAs (Decidable ((Comment.strip false (trim line)).2 = false))

/-- The facts of code in a line of a given number. -/
def factsOf (registry : Registry) (code : Text) (number : Int) : List Fact :=
  if mayCall code then registry.lineFacts code number else []

/-- **The facts of a source** are those of the code of its lines. -/
theorem facts_eq (registry : Registry) (source : Text) :
    facts registry source =
      (codeLines source.lines).flatMap fun (number, code) => factsOf registry code number := by
  rw [facts, events]
  induction codeLines source.lines with
  | nil => rfl
  | cons l ls ih =>
    obtain ⟨number, code⟩ := l
    rw [List.filter_cons, List.flatMap_cons]
    simp only [factsOf]
    split
    · rw [List.flatMap_cons, List.filterMap_append, ih]
      rfl
    · exact ih

theorem codeLines_of_closed {ls : List Text} (h : ∀ l ∈ ls, IsClosed l) :
    codeLines ls = (ls.zipIdx 1).map fun (l, number) => ((number : Int), codeOf l) := by
  have hstrip : Comment.stripLines false (ls.map trim) =
      ls.map fun l => Comment.strip false (trim l) := by
    induction ls with
    | nil => rfl
    | cons l ls ih =>
      rw [List.forall_mem_cons] at h
      have hl : (Comment.strip false (trim l)).2 = false := h.1
      rw [List.map_cons, Comment.stripLines, hl, ih h.2, List.map_cons]
  rw [codeLines, hstrip, List.zipIdx_map, List.map_map]
  rfl

/-- **The facts of a source without open comments** are those of its lines. -/
theorem facts_of_closed {registry : Registry} {source : Text} (h : ∀ l ∈ source.lines, IsClosed l) :
    facts registry source =
      (source.lines.zipIdx 1).flatMap fun (l, number) => factsOf registry (codeOf l) number := by
  rw [facts_eq, codeLines_of_closed h, List.flatMap_map]

/-- The facts of a source of one line. -/
theorem facts_of_line {registry : Registry} {line : Text} (hline : line.InLine) (hne : line ≠ [])
    (hclosed : IsClosed line) : facts registry line = factsOf registry (codeOf line) 1 := by
  have hlines : line.lines = [line] := Text.lines_of_inLine hline hne
  have hall : ∀ l ∈ line.lines, IsClosed l := by
    rw [hlines, List.forall_mem_singleton]
    exact hclosed
  rw [facts_of_closed hall, hlines, List.zipIdx_singleton, List.flatMap_singleton]
  rfl

theorem trim_of_isTrimmed {t : Text} (ht : t.IsTrimmed) (hmark : t.head? ≠ some (.char '\uFEFF')) :
    trim t = t := by
  unfold trim
  rw [Text.strip_eq_self ht]
  split
  · exact absurd rfl hmark
  · rfl

/-- The blanks before the code of a line do not count. -/
theorem trim_blank_append {u t : Text} (hu : ∀ p ∈ u, p.isBlank = true) :
    trim (u ++ t) = trim t := by
  unfold trim
  rw [Text.strip_blank_append hu]

/-- A line of blanks and code that is kept is read as its code. -/
theorem codeOf_blank_append {u t : Text} (hu : ∀ p ∈ u, p.isBlank = true) (ht : t.IsTrimmed)
    (hmark : t.head? ≠ some (.char '\uFEFF')) (hkept : Comment.Kept t) :
    codeOf (u ++ t) = t ∧ IsClosed (u ++ t) := by
  rw [codeOf, IsClosed, trim_blank_append hu, trim_of_isTrimmed ht hmark, hkept.strip_eq]
  exact ⟨Text.strip_eq_self ht, rfl⟩

end LvglForest.Extraction
