import LvglForest.Fact.Extraction
import LvglForest.Proofs.Fact.Reader
import LvglForest.Proofs.Source.Operand
import LvglForest.Proofs.Source.Spelling

/-!
# What source can say

Whatever a source text holds, the facts that are found in it name their widgets by words, and what
they say can be shown: names, texts and styles are texts, and a number that is read has few enough
digits to be written again (`Extraction.isSourced_of_mem_facts`). This is shown recognizer by
recognizer. A setter is about an identifier, but a creation is about any word.
-/

namespace LvglForest

/-! ## Values that can be shown -/

/-- A value that can be shown: no number in it has too many digits. -/
def Value.CanShow (v : Value) : Prop := ∃ t, v.display = .ok t

/-- An integer with few enough digits to be written. -/
def Value.IsOffset (v : Value) : Prop := ∃ n, v = .integer n ∧ Decimal.Converts n

/-- A size that can be written as an argument of a setter. -/
def Size.CanShow (s : Size) : Prop := ∃ t, s.toSource = .ok t

/-- A size that an argument of a setter gives. -/
def Size.IsSourced (s : Size) : Prop := ∃ t, ofSource t = .ok s

theorem Value.canShow_text (t : Text) : (Value.text t).CanShow := ⟨t, rfl⟩

theorem Value.canShow_integer {n : Int} (h : Decimal.Converts n) : (Value.integer n).CanShow :=
  ⟨_, Decimal.write_of_converts h⟩

theorem Operand.canShow_ofSource (t : Text) : (Operand.ofSource t).toValue.CanShow := by
  unfold ofSource
  split
  · next n h => exact Value.canShow_integer (Decimal.converts_of_read h)
  · exact Value.canShow_text _

theorem Value.IsOffset.canShow {v : Value} (h : v.IsOffset) : v.CanShow := by
  obtain ⟨n, rfl, hn⟩ := h
  exact canShow_integer hn

theorem Value.isOffset_zero : (Value.integer 0).IsOffset := ⟨0, rfl, by decide⟩

theorem Recognizer.isOffset_offset (t : Text) : (offset t).IsOffset := by
  unfold offset Operand.ofSource
  split
  · next n h => exact ⟨n, rfl, Decimal.converts_of_read h⟩
  · exact Value.isOffset_zero

theorem Size.IsSourced.canShow {s : Size} (h : s.IsSourced) : s.CanShow := by
  obtain ⟨t, h⟩ := h
  obtain rfl | ⟨n, hn, rfl⟩ | rfl := ofSource_cases h
  · exact Value.canShow_text _
  · obtain ⟨u, hu⟩ := Value.canShow_integer hn
    exact ⟨_, by rw [toSource, hu]; rfl⟩
  · exact Operand.canShow_ofSource _

/-! ## Facts -/

/-- What source can say of a widget. -/
def Assertion.IsSourced : Assertion → Prop
  | .declared _ | .center => True
  | .created kind _ parent => (∃ t, kind = .text t ∧ t.IsWord) ∧ ∃ t, parent = .text t
  | .text v | .style _ v => ∃ t, v = .text t
  | .size width height => width.IsSourced ∧ height.IsSourced
  | .value v => v.CanShow
  | .range min max => min.CanShow ∧ max.CanShow
  | .align keyword x y => (∃ t, keyword = .text t) ∧ x.IsOffset ∧ y.IsOffset
  | .position x y => x.IsOffset ∧ y.IsOffset

/-- What source can say of the widget of a name. -/
structure Fact.IsSourced (f : Fact) : Prop where
  identifier : f.identifier.IsWord
  assertion : f.assertion.IsSourced

namespace Recognizer

/-- A recognizer finds only what source can say. -/
def FindsSourced (r : Recognizer) : Prop :=
  ∀ line number f, r.run line number = .ok (some f) → f.IsSourced

/-- Reading a call gives only what source can say. -/
def ReadsSourced (call : Call) (read : Call → Except Fault (Option (Text × Assertion))) : Prop :=
  ∀ id a, read call = .ok (some (id, a)) → id.IsWord ∧ a.IsSourced

theorem findsSourced_ofCall {name : Except Fault Text} {pattern : CallPattern}
    {read : Call → Except Fault (Option (Text × Assertion))} {remarks : Text → Int → List Text}
    (h : ∀ line call, pattern.find? line = some call → ReadsSourced call read) :
    FindsSourced { name, run := ofCall pattern read, remarks } := by
  intro line number f hf
  obtain ⟨call, hcall, hread⟩ := exists_call_of_ofCall hf
  obtain ⟨hword, ha⟩ := h line call hcall f.identifier f.assertion hread
  exact ⟨hword, ha⟩

/-! ## Declarations and creations -/

theorem isWord_takeWhile {t : Text} (h : (t.takeWhile CodePoint.isWord).isEmpty = false) :
    Text.IsWord (t.takeWhile CodePoint.isWord) where
  ne_nil := List.isEmpty_eq_false_iff.1 h
  all _ hp := List.mem_takeWhile_imp hp

theorem isWord_of_declared? {line id : Text} (h : declared? line = some id) : id.IsWord := by
  unfold declared? at h
  simp only [Option.bind_eq_bind, Option.bind_eq_some_iff] at h
  obtain ⟨-, -, r, -, -, -, -, -, -, -, h⟩ := h
  split at h
  · cases h
  · next hempty =>
    cases h
    exact isWord_takeWhile (Bool.of_not_eq_true hempty)

theorem findsSourced_declaration : declaration.FindsSourced := by
  intro line number f hf
  obtain ⟨id, hid, rfl⟩ := Option.map_eq_some_iff.1 (Except.ok.inj hf)
  exact ⟨isWord_of_declared? hid, trivial⟩

/-- A pattern fits where a word begins. -/
theorem exists_siteAt?_of_search? {pattern : CallPattern} {inWord : Bool} {t : Text}
    {site : CallSite} (h : pattern.search? inWord t = some site) :
    ∃ p r, CodePoint.isWord p = true ∧ pattern.siteAt? (p :: r) = some site := by
  induction t generalizing inWord with
  | nil => cases h
  | cons p t ih =>
    rw [CallPattern.search?] at h
    split at h
    · next hp =>
      split at h
      · next site' hsite =>
        cases h
        exact ⟨p, t, hp.1, hsite⟩
      · exact ih h
    · exact ih h

/-- What stands between the ends of a name is a word. -/
theorem isWord_of_groups? {first last w : Text} {groups : List Text}
    (hw : ∀ p ∈ w, p.isWord = true)
    (h : (NamePattern.between first last).groups? w = some groups) : ∀ g ∈ groups, g.IsWord := by
  refine fun g hg => ⟨?_, fun p hp => hw p (NamePattern.subset_of_groups? h g hg hp)⟩
  revert g
  simp only [NamePattern.groups?] at h
  split at h
  · next hw =>
    cases h
    simp only [Bool.and_eq_true, decide_eq_true_eq] at hw
    rw [List.forall_mem_singleton, List.ne_nil_iff_length_pos, List.length_take, List.length_drop]
    omega
  · cases h

theorem groups?_of_callAt? {name : NamePattern} {t : Text} {site : CallSite}
    (h : CallPattern.callAt? name t = some site) :
    name.groups? (t.takeWhile CodePoint.isWord) = some site.groups := by
  unfold CallPattern.callAt? at h
  simp only at h
  split at h
  · cases h
  · next groups hgroups =>
    split at h
    · cases h
      exact hgroups
    · cases h

/-- The target of an assigned call is a word, and the other groups are those of a name. -/
theorem isWord_target {name : NamePattern} {line : Text} {call : Call}
    (h : (CallPattern.assignedCall name).find? line = some call) :
    ∃ target groups, call.groups = target :: groups ∧ target.IsWord ∧
      ∃ w : Text, (∀ p ∈ w, p.isWord = true) ∧ name.groups? w = some groups := by
  unfold CallPattern.find? at h
  split at h
  · cases h
  · next site hsite =>
    obtain ⟨inner, -, rfl⟩ := Option.map_eq_some_iff.1 h
    obtain ⟨p, r, hp, hat⟩ := exists_siteAt?_of_search? hsite
    simp only [CallPattern.siteAt?] at hat
    split at hat
    · split at hat
      · cases hat
      · next called hcalled =>
        cases hat
        refine ⟨_, _, rfl, isWord_takeWhile ?_, _, fun p hp => List.mem_takeWhile_imp hp,
          groups?_of_callAt? hcalled⟩
        rw [List.takeWhile_cons, hp, if_pos rfl, List.isEmpty_cons]
    · cases hat

theorem findsSourced_creation : creation.FindsSourced := by
  refine findsSourced_ofCall fun line call hcall id a h => ?_
  obtain ⟨target, groups, hgroups, htarget, w, hw, hnamed⟩ := isWord_target hcall
  obtain ⟨sourceName, hsame, rfl⟩ := exists_of_readCreation h
  obtain ⟨rfl, rfl⟩ := List.cons.inj (hgroups.symm.trans hsame)
  refine ⟨htarget, ⟨_, rfl, ?_⟩, ⟨_, rfl⟩⟩
  cases Kind.ofSourceName? sourceName with
  | none => exact isWord_of_groups? hw hnamed sourceName List.mem_cons_self
  | some k =>
    show k.name.IsWord
    cases k <;> decide

/-! ## Setters -/

section Setters

variable (call : Call)

theorem readsSourced_text : ReadsSourced call readText := by
  intro id a h
  obtain ⟨hid, literal, t, -, -, rfl⟩ := exists_of_readText h
  exact ⟨Text.isWord_of_isIdentifier hid, t, rfl⟩

theorem readsSourced_size : ReadsSourced call readSize := by
  intro id a h
  obtain ⟨hid, width, height, w, u, -, hw, hu, rfl⟩ := exists_of_readSize h
  exact ⟨Text.isWord_of_isIdentifier hid, ⟨width, hw⟩, ⟨height, hu⟩⟩

theorem readsSourced_value : ReadsSourced call readValue := by
  intro id a h
  obtain ⟨hid, v, rest, -, rfl⟩ := exists_of_readValue h
  exact ⟨Text.isWord_of_isIdentifier hid, Operand.canShow_ofSource v⟩

theorem readsSourced_range : ReadsSourced call readRange := by
  intro id a h
  obtain ⟨hid, min, max, -, rfl⟩ := exists_of_readRange h
  exact ⟨Text.isWord_of_isIdentifier hid, Operand.canShow_ofSource min,
    Operand.canShow_ofSource max⟩

theorem readsSourced_knownStyle : ReadsSourced call readKnownStyle := by
  intro id a h
  obtain ⟨hid, key, v, rest, -, -, rfl⟩ := exists_of_readKnownStyle h
  exact ⟨Text.isWord_of_isIdentifier hid, _, rfl⟩

theorem readsSourced_otherStyle : ReadsSourced call readOtherStyle := by
  intro id a h
  obtain ⟨hid, name, v, rest, -, -, rfl⟩ := exists_of_readOtherStyle h
  exact ⟨Text.isWord_of_isIdentifier hid, v, rfl⟩

theorem readsSourced_align : ReadsSourced call readAlign := by
  intro id a h
  obtain ⟨hid, keyword, x, y, -, rfl⟩ := exists_of_readAlign h
  exact ⟨Text.isWord_of_isIdentifier hid, ⟨keyword, rfl⟩, isOffset_offset x, isOffset_offset y⟩

theorem readsSourced_center : ReadsSourced call readCenter := by
  intro id a h
  obtain ⟨hid, -, rfl⟩ := exists_of_readCenter h
  exact ⟨Text.isWord_of_isIdentifier hid, trivial⟩

theorem readsSourced_position : ReadsSourced call readPosition := by
  intro id a h
  obtain ⟨hid, x, y, -, rfl⟩ := exists_of_readPosition h
  exact ⟨Text.isWord_of_isIdentifier hid, isOffset_offset x, isOffset_offset y⟩

end Setters

/-- Every recognizer of the library finds only what source can say. -/
theorem findsSourced_standard {c : Category} {r : Recognizer}
    (h : r ∈ Registry.standard.recognizers c) : r.FindsSourced := by
  have hsetter {name : Except Fault Text} {pattern : CallPattern}
      {read : Call → Except Fault (Option (Text × Assertion))} {remarks : Text → Int → List Text}
      (hread : ∀ call, ReadsSourced call read) :
      FindsSourced { name, run := ofCall pattern read, remarks } :=
    findsSourced_ofCall fun _ call _ => hread call
  revert r
  cases c <;> simp only [Registry.standard, List.forall_mem_cons, List.not_mem_nil,
    false_implies, implies_true, and_true]
  · exact findsSourced_declaration
  · exact findsSourced_creation
  · exact ⟨hsetter readsSourced_text, hsetter readsSourced_size, hsetter readsSourced_value,
      hsetter readsSourced_range⟩
  · exact ⟨hsetter readsSourced_knownStyle, hsetter readsSourced_otherStyle⟩
  · exact ⟨hsetter readsSourced_align, hsetter readsSourced_center,
      hsetter readsSourced_position⟩

end Recognizer

/-! ## Source texts -/

theorem Registry.exists_of_mem_tryInTurn {line : Text} {number : Int} {rs : List Recognizer}
    {f : Fact} (h : .fact f ∈ tryInTurn line number rs) :
    ∃ r ∈ rs, r.run line number = .ok (some f) := by
  induction rs with
  | nil => cases h
  | cons r rs ih =>
    have hrest : (.fact f ∈ tryInTurn line number rs) →
        ∃ r' ∈ r :: rs, r'.run line number = .ok (some f) := by
      intro h
      obtain ⟨r', hr', hrun⟩ := ih h
      exact ⟨r', List.mem_cons_of_mem _ hr', hrun⟩
    rw [tryInTurn] at h
    split at h
    · exact hrest ((List.mem_cons.1 h).resolve_left (by simp))
    · exact hrest h
    · next found hrun =>
      rw [List.mem_append, List.mem_singleton] at h
      rcases h with h | h
      · obtain ⟨t, -, ht⟩ := List.mem_map.1 h
        cases ht
      · cases h
        exact ⟨r, List.mem_cons_self, hrun⟩

theorem Event.eq_fact_of_fact? {e : Event} {f : Fact} (h : e.fact? = some f) : e = .fact f := by
  cases e with
  | fact g => exact congrArg _ (Option.some.inj h)
  | failure number recognizer line fault => cases h
  | remark t => cases h

/-- What is found on a line is found by a recognizer. -/
theorem Registry.exists_of_mem_lineEvents {registry : Registry} {line : Text} {number : Int}
    {f : Fact} (h : .fact f ∈ registry.lineEvents line number) :
    ∃ c, ∃ r ∈ registry.recognizers c, r.run line number = .ok (some f) := by
  obtain ⟨c, -, h⟩ := List.mem_flatMap.1 h
  exact ⟨c, exists_of_mem_tryInTurn h⟩

/-- **Every fact of a source text** says what source can say. -/
theorem Extraction.isSourced_of_mem_facts {source : Text} {f : Fact}
    (h : f ∈ facts .standard source) : f.IsSourced := by
  obtain ⟨e, he, hf⟩ := List.mem_filterMap.1 h
  rw [Event.eq_fact_of_fact? hf] at he
  obtain ⟨⟨number, code⟩, -, he⟩ := List.mem_flatMap.1 he
  obtain ⟨c, r, hr, hrun⟩ := Registry.exists_of_mem_lineEvents he
  exact Recognizer.findsSourced_standard hr code number f hrun

end LvglForest
