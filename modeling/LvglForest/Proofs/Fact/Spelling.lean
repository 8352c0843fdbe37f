import LvglForest.Proofs.Fact.Comment
import LvglForest.Proofs.Fact.Source
import LvglForest.Proofs.Fault
import LvglForest.Proofs.Source.Spelling
import LvglForest.Proofs.Text.MadeOf

/-!
# How facts are spelled

Numbers show in ASCII digits, and kinds, styles, alignments and expressions are kept as the source
has them. So what a source text says shows in the code points of its lines
(`Extraction.shownIn_of_mem_facts`). Texts are left out: an escape in a literal stands for any byte.
-/

namespace LvglForest

/-! ## Values -/

variable {P : CodePoint → Prop}

/-- A value shows as a text that is made of certain code points. -/
def Value.ShownIn (P : CodePoint → Prop) (v : Value) : Prop := Yields (Text.MadeOf P) v.display

/-- A size is given by a value that shows as a text of certain code points. -/
def Size.ShownIn (P : CodePoint → Prop) : Size → Prop
  | .plain v | .percent v => v.ShownIn P

namespace Value

theorem shownIn_text {t : Text} : (text t).ShownIn P ↔ t.MadeOf P := yields_ok

variable (hP : HoldsOfPrintable P)
include hP

theorem shownIn_null : null.ShownIn P := ⟨_, rfl, Text.madeOf_of_printable hP (by decide)⟩

theorem shownIn_integer {n : Int} (h : Decimal.Converts n) : (integer n).ShownIn P := by
  refine ⟨_, Decimal.write_of_converts h, ?_⟩
  cases n with
  | ofNat n => exact Text.madeOf_decimal hP n
  | negSucc n =>
    have hminus : P (.char '-') := hP _ (by decide) (by decide)
    exact Text.madeOf_cons.2 ⟨hminus, Text.madeOf_decimal hP (n + 1)⟩

theorem IsOffset.shownIn {v : Value} (h : v.IsOffset) : v.ShownIn P := by
  obtain ⟨n, rfl, hn⟩ := h
  exact shownIn_integer hP hn

end Value

namespace Size

variable (hP : HoldsOfPrintable P) {s : Size}
include hP

theorem shownIn_auto : auto.ShownIn P :=
  Value.shownIn_text.2 (Text.madeOf_of_printable hP (by decide))

theorem yields_display_iff : Yields (Text.MadeOf P) s.display ↔ s.ShownIn P := by
  cases s with
  | plain v => rfl
  | percent v =>
    rw [Size.display, yields_map]
    refine yields_congr fun t => ?_
    rw [Text.madeOf_append, and_iff_left (Text.madeOf_of_printable hP (by decide))]

theorem yields_toSource_iff : Yields (Text.MadeOf P) s.toSource ↔ s.ShownIn P := by
  cases s with
  | plain v => rfl
  | percent v =>
    rw [Size.toSource, yields_map]
    refine yields_congr fun t => ?_
    rw [Text.madeOf_append, Text.madeOf_append,
      and_iff_right (Text.madeOf_of_printable hP (by decide)),
      and_iff_left (Text.madeOf_of_printable hP (by decide))]

end Size

/-! ## Arguments -/

section Arguments

variable (hP : HoldsOfPrintable P) {t : Text} (ht : t.MadeOf P)
include hP ht

theorem Operand.shownIn_ofSource : (ofSource t).toValue.ShownIn P := by
  unfold ofSource
  split
  · next n hn => exact Value.shownIn_integer hP (Decimal.converts_of_read hn)
  · exact Value.shownIn_text.2 (ht.of_subset t.strip_subset)

theorem Size.shownIn_ofSource {s : Size} (h : ofSource t = .ok s) : s.ShownIn P := by
  obtain rfl | ⟨n, hn, rfl⟩ | rfl := ofSource_cases h
  · exact shownIn_auto hP
  · exact Value.shownIn_integer hP hn
  · exact Operand.shownIn_ofSource hP (ht.of_subset t.strip_subset)

omit hP in
theorem StyleKey.madeOf_ofSource (k : StyleKey) : (k.ofSource t).MadeOf P := by
  have hcolor : (Color.ofSource t).MadeOf P := ht.of_subset (Color.ofSource_subset t)
  cases k with
  | bgColor => exact hcolor
  | textColor => exact hcolor
  | textFont =>
    unfold ofSource
    split
    · next heq => cases heq
    · next heq => cases heq
    · exact (Text.madeOf_cons.1 ht).2.of_subset (Text.strip_subset _)
    · exact ht
  | radius => exact ht
  | borderOpa => exact ht

end Arguments

/-! ## Assertions -/

/-- What is said, but for a text, shows in certain code points. -/
def Assertion.ShownIn (P : CodePoint → Prop) : Assertion → Prop
  | .declared _ | .text _ | .center => True
  | .created kind _ _ => kind.ShownIn P
  | .size width height => width.ShownIn P ∧ height.ShownIn P
  | .value v => v.ShownIn P
  | .range min max => min.ShownIn P ∧ max.ShownIn P
  | .style key v => key.MadeOf P ∧ v.ShownIn P
  | .align keyword x y => keyword.ShownIn P ∧ x.ShownIn P ∧ y.ShownIn P
  | .position x y => x.ShownIn P ∧ y.ShownIn P

namespace Recognizer

/-- What a recognizer finds shows in the code points of the line. -/
def FindsShown (P : CodePoint → Prop) (r : Recognizer) : Prop :=
  ∀ line number f, line.MadeOf P → r.run line number = .ok (some f) → f.assertion.ShownIn P

/-- What is read off a call shows in the code points of the call. -/
def ReadsShown (P : CodePoint → Prop) (read : Call → Except Fault (Option (Text × Assertion))) :
    Prop :=
  ∀ call : Call, (∀ g ∈ call.groups, g.MadeOf P) → (∀ a ∈ call.arguments, a.MadeOf P) →
    ∀ id a, read call = .ok (some (id, a)) → a.ShownIn P

theorem findsShown_ofCall {name : Except Fault Text} {pattern : CallPattern}
    {read : Call → Except Fault (Option (Text × Assertion))} {remarks : Text → Int → List Text}
    (h : ReadsShown P read) : FindsShown P { name, run := ofCall pattern read, remarks } := by
  intro line number f hline hf
  obtain ⟨call, hcall, hread⟩ := exists_call_of_ofCall hf
  obtain ⟨hgroups, harguments⟩ := CallPattern.subset_of_find? hcall
  exact h call (fun g hg => hline.of_subset (hgroups g hg))
    (fun a ha => hline.of_subset (harguments a ha)) f.identifier f.assertion hread

section Readers

variable (hP : HoldsOfPrintable P)

theorem readsShown_text : ReadsShown P readText := by
  intro call _ _ id a h
  obtain ⟨-, literal, t, -, -, rfl⟩ := exists_of_readText h
  trivial

theorem readsShown_center : ReadsShown P readCenter := by
  intro call _ _ id a h
  obtain ⟨-, -, rfl⟩ := exists_of_readCenter h
  trivial

theorem readsShown_knownStyle : ReadsShown P readKnownStyle := by
  intro call hgroups harguments id a h
  obtain ⟨-, key, v, rest, hname, hcall, rfl⟩ := exists_of_readKnownStyle h
  rw [hname, List.forall_mem_singleton] at hgroups
  simp only [hcall, List.forall_mem_cons] at harguments
  exact ⟨hgroups, Value.shownIn_text.2 (key.madeOf_ofSource harguments.2.1)⟩

theorem readsShown_otherStyle : ReadsShown P readOtherStyle := by
  intro call hgroups harguments id a h
  obtain ⟨-, name, v, rest, hname, hcall, rfl⟩ := exists_of_readOtherStyle h
  rw [hname, List.forall_mem_singleton] at hgroups
  simp only [hcall, List.forall_mem_cons] at harguments
  exact ⟨hgroups, Value.shownIn_text.2 harguments.2.1⟩

include hP

theorem readsShown_creation : ReadsShown P readCreation := by
  intro call hgroups _ id a h
  obtain ⟨sourceName, hcall, rfl⟩ := exists_of_readCreation h
  simp only [hcall, List.forall_mem_cons] at hgroups
  refine Value.shownIn_text.2 ?_
  cases Kind.ofSourceName? sourceName with
  | none => exact hgroups.2.1
  | some k =>
    show k.name.MadeOf P
    exact Text.madeOf_of_printable hP (by cases k <;> decide)

theorem readsShown_size : ReadsShown P readSize := by
  intro call _ harguments id a h
  obtain ⟨-, width, height, w, u, hcall, hw, hu, rfl⟩ := exists_of_readSize h
  simp only [hcall, List.forall_mem_cons] at harguments
  obtain ⟨-, hwidth, hheight, -⟩ := harguments
  exact ⟨Size.shownIn_ofSource hP hwidth hw, Size.shownIn_ofSource hP hheight hu⟩

theorem readsShown_value : ReadsShown P readValue := by
  intro call _ harguments id a h
  obtain ⟨-, v, rest, hcall, rfl⟩ := exists_of_readValue h
  simp only [hcall, List.forall_mem_cons] at harguments
  exact Operand.shownIn_ofSource hP harguments.2.1

theorem readsShown_range : ReadsShown P readRange := by
  intro call _ harguments id a h
  obtain ⟨-, min, max, hcall, rfl⟩ := exists_of_readRange h
  simp only [hcall, List.forall_mem_cons] at harguments
  obtain ⟨-, hmin, hmax, -⟩ := harguments
  exact ⟨Operand.shownIn_ofSource hP hmin, Operand.shownIn_ofSource hP hmax⟩

theorem readsShown_align : ReadsShown P readAlign := by
  intro call _ harguments id a h
  obtain ⟨-, keyword, x, y, hcall, rfl⟩ := exists_of_readAlign h
  simp only [hcall, List.forall_mem_cons] at harguments
  exact ⟨Value.shownIn_text.2 harguments.2.1, (isOffset_offset x).shownIn hP,
    (isOffset_offset y).shownIn hP⟩

theorem readsShown_position : ReadsShown P readPosition := by
  intro call _ _ id a h
  obtain ⟨-, x, y, -, rfl⟩ := exists_of_readPosition h
  exact ⟨(isOffset_offset x).shownIn hP, (isOffset_offset y).shownIn hP⟩

omit hP in
theorem findsShown_declaration : declaration.FindsShown P := by
  intro line number f _ hf
  obtain ⟨id, -, rfl⟩ := Option.map_eq_some_iff.1 (Except.ok.inj hf)
  trivial

/-- What any recognizer of the library finds shows in the code points of the line. -/
theorem findsShown_standard {c : Category} {r : Recognizer}
    (h : r ∈ Registry.standard.recognizers c) : r.FindsShown P := by
  revert r
  cases c <;> simp only [Registry.standard, List.forall_mem_cons, List.not_mem_nil,
    false_implies, implies_true, and_true]
  · exact findsShown_declaration
  · exact findsShown_ofCall (readsShown_creation hP)
  · exact ⟨findsShown_ofCall readsShown_text, findsShown_ofCall (readsShown_size hP),
      findsShown_ofCall (readsShown_value hP), findsShown_ofCall (readsShown_range hP)⟩
  · exact ⟨findsShown_ofCall readsShown_knownStyle, findsShown_ofCall readsShown_otherStyle⟩
  · exact ⟨findsShown_ofCall (readsShown_align hP), findsShown_ofCall readsShown_center,
      findsShown_ofCall (readsShown_position hP)⟩

end Readers

end Recognizer

/-! ## Source texts -/

namespace Extraction

theorem madeOf_strip (hblank : P (.char ' ')) {inBlock : Bool} {line : Text} (h : line.MadeOf P) :
    (Comment.strip inBlock (trim line)).1.strip.MadeOf P := by
  have htrim : (trim line).MadeOf P := h.of_subset (trim_isInfix line).subset
  exact (Text.madeOf_cons.2 ⟨hblank, htrim⟩).of_subset
    (List.Subset.trans (Text.strip_subset _) (Comment.subset_strip inBlock _))

/-- A blank source says nothing. -/
theorem facts_of_isBlank (registry : Registry) {source : Text} (h : source.isBlank = true) :
    facts registry source = [] := by
  have hlines : ∀ l ∈ source.lines, l.MadeOf fun p => p.isBlank = true := fun l hl p hp =>
    List.all_eq_true.1 h p (Text.subset_of_mem_lines source l hl hp)
  rw [facts_eq_factsFrom]
  generalize source.lines = ls, false = inBlock, 1 = number at hlines ⊢
  induction ls generalizing inBlock number with
  | nil => rfl
  | cons line ls ih =>
    rw [List.forall_mem_cons] at hlines
    have hcode : (Comment.strip inBlock (trim line)).1.strip.MadeOf fun p => p.isBlank = true :=
      madeOf_strip (by decide) hlines.1
    have hsilent : mayCall (Comment.strip inBlock (trim line)).1.strip = false :=
      Text.hasInfix_eq_false_iff.2 fun hcall =>
        absurd (hcode (.char 'l') (hcall.subset (by decide))) (by decide)
    rw [factsFrom, ih _ _ hlines.2, factsOf, hsilent, List.append_nil]
    exact if_neg Bool.false_ne_true

variable (hP : HoldsOfPrintable P)
include hP

theorem shownIn_of_mem_factsFrom {inBlock : Bool} {number : Nat} {ls : List Text} {f : Fact}
    (hls : ∀ l ∈ ls, l.MadeOf P) (h : f ∈ factsFrom .standard inBlock number ls) :
    f.assertion.ShownIn P := by
  induction ls generalizing inBlock number with
  | nil => exact absurd h List.not_mem_nil
  | cons line ls ih =>
    rw [List.forall_mem_cons] at hls
    rw [factsFrom] at h
    rcases List.mem_append.1 h with h | h
    · unfold factsOf at h
      split at h
      · obtain ⟨e, he, hf⟩ := List.mem_filterMap.1 h
        rw [Event.eq_fact_of_fact? hf] at he
        obtain ⟨c, r, hr, hrun⟩ := Registry.exists_of_mem_lineEvents he
        have hblank : P (.char ' ') := hP _ (by decide) (by decide)
        exact Recognizer.findsShown_standard hP hr _ _ f (madeOf_strip hblank hls.1) hrun
      · exact absurd h List.not_mem_nil
    · exact ih hls.2 h

/-- **What a source text says** shows in the code points of its lines, but for texts. -/
theorem shownIn_of_mem_facts {source : Text} (hlines : ∀ l ∈ source.lines, l.MadeOf P) {f : Fact}
    (h : f ∈ facts .standard source) : f.assertion.ShownIn P := by
  rw [facts_eq_factsFrom] at h
  exact shownIn_of_mem_factsFrom hP hlines h

end Extraction

end LvglForest
