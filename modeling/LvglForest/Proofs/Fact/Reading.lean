import LvglForest.Proofs.Fact.Comment
import LvglForest.Proofs.Fact.Line

/-!
# Lines that are read alike

What lines say, and whether a block comment goes on after them (`Extraction.read`), depends on where
they start, but neither on their numbers nor on the blanks around them (`Extraction.read_of_trim`).
So lines that are read alike can stand for one another in a source (`Extraction.read_append_congr`).
-/

namespace LvglForest.Extraction

/-- What is said by lines that start inside or outside a block comment, and whether a block comment
goes on after them. -/
def read (inBlock : Bool) (ls : List Text) : List (Text × Assertion) × Bool :=
  ((factsFrom .standard inBlock 0 ls).map Fact.content, openAfter inBlock ls)

variable {inBlock : Bool} {ls ms : List Text}

theorem content_shift (n : Nat) (f : Fact) : (f.shift n).content = f.content := by
  unfold Fact.shift
  split <;> rfl

/-- What lines say does not depend on their numbers. -/
theorem map_content_factsFrom (inBlock : Bool) (number : Nat) (ls : List Text) :
    (factsFrom .standard inBlock number ls).map Fact.content = (read inBlock ls).1 := by
  have hshift := factsFrom_shift Registry.isNumbering_standard inBlock 0 number ls
  rw [Nat.zero_add] at hshift
  rw [hshift, List.map_map, read]
  exact List.map_congr_left fun f _ => content_shift number f

theorem map_content_facts (source : Text) :
    (facts .standard source).map Fact.content = (read false source.lines).1 := by
  rw [facts_eq_factsFrom, map_content_factsFrom]

theorem read_append (inBlock : Bool) (ls ms : List Text) :
    read inBlock (ls ++ ms) = ((read inBlock ls).1 ++ (read (openAfter inBlock ls) ms).1,
      (read (openAfter inBlock ls) ms).2) := by
  rw [read, factsFrom_append, openAfter_append, List.map_append, map_content_factsFrom,
    map_content_factsFrom]
  rfl

/-- Lines that are read alike can stand for one another. -/
theorem read_append_congr {ls' ms' : List Text} (h : read inBlock ls = read inBlock ls')
    (h' : read (openAfter inBlock ls) ms = read (openAfter inBlock ls) ms') :
    read inBlock (ls ++ ms) = read inBlock (ls' ++ ms') := by
  have hopen : openAfter inBlock ls = openAfter inBlock ls' := congrArg Prod.snd h
  rw [read_append, read_append, h, h', hopen]

/-- What lines say does not depend on the blanks around them. -/
theorem read_of_trim (h : ls.map trim = ms.map trim) (inBlock : Bool) :
    read inBlock ls = read inBlock ms := by
  -- The numbers go up with the lines, so the induction is on facts from any number on.
  have hfrom : ∀ number,
      factsFrom .standard inBlock number ls = factsFrom .standard inBlock number ms ∧
        openAfter inBlock ls = openAfter inBlock ms := by
    induction ls generalizing ms inBlock with
    | nil =>
      rw [List.map_nil, eq_comm, List.map_eq_nil_iff] at h
      exact fun _ => h ▸ ⟨rfl, rfl⟩
    | cons l ls ih =>
      cases ms with
      | nil => cases h
      | cons m ms =>
        rw [List.map_cons, List.map_cons, List.cons.injEq] at h
        intro number
        obtain ⟨hfacts, hopen⟩ := ih h.2 (Comment.strip inBlock (trim m)).2 (number + 1)
        rw [factsFrom, factsFrom, openAfter, openAfter, h.1, hfacts, hopen]
        exact ⟨rfl, rfl⟩
  rw [read, read, (hfrom 0).1, (hfrom 0).2]

/-- Lines that say nothing and end where they start need not be there. -/
theorem Silent.read_eq (h : Silent inBlock ls inBlock) : read inBlock ls = read inBlock [] := by
  rw [read, h.facts, h.state]
  rfl

/-- Lines without slashes start no block comment. -/
theorem openAfter_of_not_mem (h : ∀ l ∈ ls, .char '/' ∉ l) : openAfter false ls = false := by
  induction ls with
  | nil => rfl
  | cons l ls ih =>
    rw [List.forall_mem_cons] at h
    have hline : Comment.strip false (trim l) = (trim l, false) :=
      Comment.stripCode_of_not_mem (fun hmem => h.1 ((trim_isInfix l).subset hmem)) .code
    rw [openAfter, hline, ih h.2]

/-- Blanks before a text are blanks before its first line. -/
theorem map_trim_lines_append {u t : Text} (hblank : ∀ p ∈ u, p.isBlank = true) (hu : u.InLine)
    (ht : t ≠ []) : (Text.lines (u ++ t)).map trim = (Text.lines t).map trim := by
  induction u with
  | nil => rfl
  | cons p u ih =>
    have hp : ∀ q ∈ [p], q.isBlank = true := by simpa using hblank p List.mem_cons_self
    have hne : u ++ t ≠ [] := List.append_ne_nil_of_right_ne_nil u ht
    rw [← ih (fun q hq => hblank q (List.mem_cons_of_mem _ hq))
      fun q hq => hu q (List.mem_cons_of_mem _ hq)]
    obtain ⟨l, ls, hlines⟩ := List.exists_cons_of_ne_nil (Text.lines_ne_nil hne)
    rw [List.cons_append, Text.lines_cons (hu p List.mem_cons_self), hlines, Text.ontoFirst,
      List.map_cons, List.map_cons]
    exact congrArg (· :: ls.map trim) (trim_blank_append hp (t := l))

end LvglForest.Extraction
