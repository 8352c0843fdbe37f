import LvglForest.Proofs.Fact.Comment

/-!
# Sources are read line by line

How a source is divided into lines is all that matters of it: the facts of two sources stand one
after the other (`Extraction.facts_append`), the ends of the lines and the blanks around them do not
count (`Extraction.facts_join`, `Extraction.factsFrom_congr`), and every fact bears the number of
its line (`Extraction.exists_numbers_factsFrom`). Together this is `Extraction.facts_lineByLine`.
-/

namespace LvglForest

/-! ## Lines with their ends -/

namespace Text

/-- What a file may put at the end of a line. -/
def lineEnds : List Text := ["\n", "\r\n"]

theorem lines_append_lineEnd {e : Text} (he : e ∈ lineEnds) {t : Text} (ht : t.InLine) (r : Text) :
    lines (t ++ e ++ r) = t :: lines r := by
  simp only [lineEnds, List.mem_cons, List.not_mem_nil, or_false] at he
  rcases he with rfl | rfl
  · rw [List.append_assoc]
    exact lines_append_newline ht r
  · induction t with
    | nil => rfl
    | cons p t ih =>
      have hp : p.isLineBreak = false := ht p List.mem_cons_self
      rw [List.cons_append, List.cons_append, lines_cons hp,
        ih fun x hx => ht x (List.mem_cons_of_mem _ hx)]
      rfl

/-- Lines put together with line ends are read as these lines, but for an empty one at the end. -/
theorem lines_join_lineEnd {e : Text} (he : e ∈ lineEnds) {ls : List Text}
    (h : ∀ l ∈ ls, l.InLine) : ls = lines (join e ls) ∨ ls = lines (join e ls) ++ [[]] := by
  induction ls with
  | nil => exact .inl rfl
  | cons l ls ih =>
    rw [List.forall_mem_cons] at h
    cases ls with
    | nil =>
      by_cases hl : l = []
      · rw [hl]
        exact .inr rfl
      · exact .inl (lines_of_inLine h.1 hl).symm
    | cons m ls =>
      rw [join, lines_append_lineEnd he h.1]
      exact (ih h.2).imp (congrArg (l :: ·)) (congrArg (l :: ·))

end Text

/-! ## The numbers of facts -/

/-- A recognizer notes the number of the line in its facts. -/
def Recognizer.NotesNumber (r : Recognizer) : Prop :=
  ∀ (line : Text) (number : Int) (f : Fact),
    r.find? line number = some f → f.line = .integer number

theorem Recognizer.notesNumber_ofCall (name : Except Fault Text) (pattern : CallPattern)
    (read : Call → Except Fault (Option (Text × Assertion)))
    (remarks : Text → Int → List Text) :
    NotesNumber { name := name, run := ofCall pattern read, remarks := remarks } := by
  intro line number f h
  rw [find?, toOption_ofCall] at h
  obtain ⟨said, -, rfl⟩ := Option.map_eq_some_iff.1 h
  rfl

theorem Recognizer.notesNumber_declaration : declaration.NotesNumber := by
  intro line number f h
  obtain ⟨id, -, rfl⟩ := Option.map_eq_some_iff.1 (show (declared? line).map _ = some f from h)
  rfl

theorem Registry.notesNumber_standard {c : Category} {r : Recognizer}
    (h : r ∈ standard.recognizers c) : r.NotesNumber := by
  have hcall := Recognizer.notesNumber_ofCall
  cases c <;> simp only [standard, List.mem_cons, List.not_mem_nil, or_false] at h
  case declaration => exact h ▸ Recognizer.notesNumber_declaration
  case creation => exact h ▸ hcall _ _ _ _
  case property => obtain rfl | rfl | rfl | rfl := h <;> exact hcall _ _ _ _
  case style => obtain rfl | rfl := h <;> exact hcall _ _ _ _
  case layout => obtain rfl | rfl | rfl := h <;> exact hcall _ _ _ _

namespace Extraction

/-- Every fact of a line is what some recognizer finds in it. -/
theorem exists_find?_of_mem_factsOf {code : Text} {number : Int} {f : Fact}
    (h : f ∈ factsOf .standard code number) :
    ∃ c, ∃ r ∈ Registry.standard.recognizers c, r.find? code number = some f := by
  unfold factsOf at h
  split at h
  · rw [Registry.lineFacts, Registry.lineEvents, List.filterMap_flatMap, List.mem_flatMap] at h
    obtain ⟨c, -, h⟩ := h
    rw [Registry.fact?_tryInTurn, Option.mem_toList] at h
    exact ⟨c, List.exists_of_findSome?_eq_some h⟩
  · exact absurd h List.not_mem_nil

/-- All facts of a line bear its number. -/
theorem line_of_mem_factsOf {code : Text} {number : Int} {f : Fact}
    (h : f ∈ factsOf .standard code number) : f.line = .integer number := by
  obtain ⟨c, r, hr, hfound⟩ := exists_find?_of_mem_factsOf h
  exact Registry.notesNumber_standard hr code number f hfound

/-- Numbers in ascending order, from a first one on and before another one. -/
structure AreLineNumbers (first after : Nat) (numbers : List Nat) : Prop where
  ordered : numbers.Pairwise (· ≤ ·)
  first_le : ∀ n ∈ numbers, first ≤ n
  lt_after : ∀ n ∈ numbers, n < after

theorem AreLineNumbers.nil (first after : Nat) : AreLineNumbers first after [] where
  ordered := .nil
  first_le _ h := absurd h List.not_mem_nil
  lt_after _ h := absurd h List.not_mem_nil

/-- The number of a line, any number of times, comes before those of the lines further down. -/
theorem AreLineNumbers.replicate_append {first after : Nat} {numbers : List Nat} (count : Nat)
    (hfirst : first < after) (h : AreLineNumbers (first + 1) after numbers) :
    AreLineNumbers first after (List.replicate count first ++ numbers) where
  ordered := by
    refine List.pairwise_append.2 ⟨List.pairwise_replicate.2 (.inr (Nat.le_refl _)), h.ordered, ?_⟩
    intro m hm n hn
    rw [List.eq_of_mem_replicate hm]
    exact Nat.le_of_succ_le (h.first_le n hn)
  first_le := by
    refine List.forall_mem_append.2 ⟨fun n hn => ?_, fun n hn => ?_⟩
    · exact (List.eq_of_mem_replicate hn).ge
    · exact Nat.le_of_succ_le (h.first_le n hn)
  lt_after := by
    refine List.forall_mem_append.2 ⟨fun n hn => ?_, h.lt_after⟩
    rwa [List.eq_of_mem_replicate hn]

/-- What is said in a line comes before what is said further down. -/
theorem exists_numbers_factsFrom (inBlock : Bool) (number : Nat) (ls : List Text) :
    ∃ numbers : List Nat, AreLineNumbers number (number + ls.length) numbers ∧
      (factsFrom .standard inBlock number ls).map Fact.line =
        numbers.map fun n : Nat => Value.integer n := by
  induction ls generalizing inBlock number with
  | nil => exact ⟨[], .nil _ _, rfl⟩
  | cons line ls ih =>
    rw [factsFrom]
    generalize Comment.strip inBlock (trim line) = stripped
    obtain ⟨numbers, hnumbers, hlines⟩ := ih stripped.2 (number + 1)
    have hown : (factsOf .standard stripped.1.strip number).map Fact.line =
        (List.replicate (factsOf .standard stripped.1.strip number).length number).map
          fun n : Nat => Value.integer n := by
      rw [List.map_replicate]
      exact List.map_eq_replicate_iff.2 fun f hf => line_of_mem_factsOf hf
    rw [Nat.add_right_comm] at hnumbers
    refine ⟨_, hnumbers.replicate_append (factsOf .standard stripped.1.strip number).length
      (by simp), ?_⟩
    rw [List.map_append, List.map_append, hown, hlines]

theorem le_of_mem_factsFrom {inBlock : Bool} {number n : Nat} {ls : List Text} {f : Fact}
    (h : f ∈ factsFrom .standard inBlock number ls) (hf : f.line = .integer n) : number ≤ n := by
  obtain ⟨numbers, hnumbers, hlines⟩ := exists_numbers_factsFrom inBlock number ls
  have hline : f.line ∈ numbers.map fun n : Nat => Value.integer n :=
    hlines ▸ List.mem_map_of_mem h
  obtain ⟨m, hm, hsame⟩ := List.mem_map.1 hline
  have hle := hnumbers.first_le m hm
  have hcast : (m : Int) = n := Value.integer.inj (hsame.trans hf)
  omega

/-! ## Lines put together -/

variable {registry : Registry}

/-- The blanks around lines do not count. -/
theorem factsFrom_congr {ls ms : List Text} (h : ls.map Text.strip = ms.map Text.strip)
    (inBlock : Bool) (number : Nat) :
    factsFrom registry inBlock number ls = factsFrom registry inBlock number ms := by
  induction ls generalizing ms inBlock number with
  | nil => rw [List.map_eq_nil_iff.1 h.symm]
  | cons l ls ih =>
    obtain ⟨m, ms, rfl, hm, hms⟩ := List.map_eq_cons_iff.1 h.symm
    have htrim : trim l = trim m := by rw [trim, trim, hm]
    rw [factsFrom, factsFrom, htrim, ih hms.symm]

/-- How lines end does not matter. -/
theorem facts_join {e : Text} (he : e ∈ Text.lineEnds) {ls : List Text}
    (hls : ∀ l ∈ ls, l.InLine) :
    facts registry (Text.join e ls) = factsFrom registry false 1 ls := by
  rw [facts_eq_factsFrom]
  rcases Text.lines_join_lineEnd he hls with h | h
  · rw [← h]
  · nth_rewrite 2 [h]
    rw [factsFrom_append, (silent_empty _).facts, List.append_nil]

/-- **Extraction goes line by line.** The facts of two sources with a line feed between them stand
one after the other, unless the first one ends inside a block comment, and those of the second one
are further down by the lines before it. Of lines put together neither the kind of the line ends nor
the blanks around the lines count. The facts of every source bear the numbers of its lines, in
ascending order. -/
theorem facts_lineByLine :
    (∀ s₁ s₂ : Text, ¬ EndsOpen s₁ →
      facts .standard (s₁ ++ "\n" ++ s₂) = facts .standard s₁ ++
        (facts .standard s₂).map (Fact.shift (Text.lines (s₁ ++ "\n")).length)) ∧
    (∀ e ∈ Text.lineEnds, ∀ e' ∈ Text.lineEnds, ∀ ls ms : List Text,
      (∀ l ∈ ls, l.InLine) → (∀ m ∈ ms, m.InLine) → ls.map Text.strip = ms.map Text.strip →
      facts .standard (Text.join e ls) = facts .standard (Text.join e' ms)) ∧
    ∀ s : Text, ∃ numbers : List Nat, numbers.Pairwise (· ≤ ·) ∧
      (∀ n ∈ numbers, 1 ≤ n ∧ n ≤ s.lines.length) ∧
      (facts .standard s).map Fact.line = numbers.map fun n : Nat => Value.integer n := by
  refine ⟨fun s₁ s₂ hs => ?_, fun e he e' he' ls ms hls hms h => ?_, fun s => ?_⟩
  · rw [List.append_assoc]
    exact facts_append Registry.isNumbering_standard hs s₂
  · rw [facts_join he hls, facts_join he' hms, factsFrom_congr h]
  · obtain ⟨numbers, hnumbers, hlines⟩ := exists_numbers_factsFrom false 1 s.lines
    refine ⟨numbers, hnumbers.ordered, fun n hn => ⟨hnumbers.first_le n hn, ?_⟩, ?_⟩
    · have hlt := hnumbers.lt_after n hn
      omega
    · rw [facts_eq_factsFrom, hlines]

/-- A source that ends with a carriage return and a comment over two lines, and the same lines with
other ends and with blanks around them. -/
theorem facts_lineByLine_mixed :
    let s₁ : Text := "/* x\n*/ a = lv_obj_create(p);\r"
    let s₂ : Text := "\nlv_obj_center(a);"
    let ls : List Text := ["a = lv_obj_create(p);", "", "lv_obj_center(a);", ""]
    let ms : List Text := ["  a = lv_obj_create(p);", "\t", "lv_obj_center(a); ", ""]
    (¬ EndsOpen s₁) ∧ (∀ l ∈ ls, l.InLine) ∧ (∀ m ∈ ms, m.InLine) ∧
      ls.map Text.strip = ms.map Text.strip ∧
      facts .standard (s₁ ++ "\n" ++ s₂) =
        facts .standard s₁ ++ (facts .standard s₂).map (Fact.shift 2) ∧
      facts .standard (Text.join "\n" ls) = facts .standard (Text.join "\r\n" ms) ∧
      (facts .standard (s₁ ++ "\n" ++ s₂)).map Fact.line = [.integer 2, .integer 4] := by
  repeat rw [Text.ofString_ofList]
  intro s₁ s₂ ls ms
  have hopen : ¬ EndsOpen s₁ := by decide +kernel
  have hls : ∀ l ∈ ls, l.InLine := by decide
  have hms : ∀ m ∈ ms, m.InLine := by decide
  have hstrip : ls.map Text.strip = ms.map Text.strip := by decide +kernel
  obtain ⟨happend, hjoin, -⟩ := facts_lineByLine
  have happend := happend s₁ s₂ hopen
  have htwo : (Text.lines (s₁ ++ "\n")).length = 2 := by decide +kernel
  rw [htwo] at happend
  refine ⟨hopen, hls, hms, hstrip, happend,
    hjoin "\n" (by decide) "\r\n" (by decide) ls ms hls hms hstrip, ?_⟩
  rfl

end Extraction

end LvglForest
