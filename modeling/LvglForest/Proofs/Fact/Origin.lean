import LvglForest.Proofs.Fact.Extraction
import LvglForest.Proofs.Fact.Source

/-!
# Where facts come from

What a fact says decides which patterns find it and how it is read (`Assertion.readings`). So every
fact of a source text but a declaration was read off a call in the code of one of its lines
(`Extraction.exists_reading_of_mem_facts`), and the arguments of that call are known
(`Extraction.exists_call_of_size` and the others). Conversely, what is read off a call is a fact
unless a recognizer before it in its category finds something in the line
(`Extraction.mem_factsOf_of_call`).
-/

namespace LvglForest

open Recognizer

/-- The calls that say something of this kind: what finds them and what reads them. -/
def Assertion.readings :
    Assertion → List (CallPattern × (Call → Except Fault (Option (Text × Assertion))))
  | .declared _ => []
  | .created _ _ _ => [(creationPattern, readCreation)]
  | .text _ => [(textPattern, readText)]
  | .size _ _ => [(sizePattern, readSize)]
  | .value _ => [(valuePattern, readValue)]
  | .range _ _ => [(rangePattern, readRange)]
  | .style _ _ => [(knownStylePattern, readKnownStyle), (anyStylePattern, readOtherStyle)]
  | .align _ _ _ => [(alignPattern, readAlign)]
  | .center => [(centerPattern, readCenter)]
  | .position _ _ => [(positionPattern, readPosition)]

/-- Whether a fact was read off a call in a piece of code. -/
def Fact.IsReadOff (code : Text) (f : Fact) : Prop :=
  ∃ p ∈ f.assertion.readings, ∃ call,
    p.1.find? code = some call ∧ p.2 call = .ok (some (f.identifier, f.assertion))

namespace Recognizer

/-- What a reader says, it alone says, so its pattern found the call. -/
theorem isReadOff_of_ofCall {pattern : CallPattern}
    {read : Call → Except Fault (Option (Text × Assertion))}
    (hreadings : ∀ call id a, read call = .ok (some (id, a)) → (pattern, read) ∈ a.readings)
    {code : Text} {number : Int} {f : Fact} (h : ofCall pattern read code number = .ok (some f)) :
    f.IsReadOff code := by
  obtain ⟨call, hcall, hread⟩ := exists_call_of_ofCall h
  exact ⟨_, hreadings call _ _ hread, call, hcall, hread⟩

/-- **Every fact but a declaration is read off a call.** -/
theorem isReadOff_standard {c : Category} {r : Recognizer}
    (hr : r ∈ Registry.standard.recognizers c) {code : Text} {number : Int} {f : Fact}
    (h : r.run code number = .ok (some f)) :
    (∃ type, f.assertion = .declared type) ∨ f.IsReadOff code := by
  cases c <;> simp only [Registry.standard, List.mem_cons, List.not_mem_nil, or_false] at hr
  case declaration =>
    subst hr
    obtain ⟨id, -, rfl⟩ := Option.map_eq_some_iff.1 (Except.ok.inj h)
    exact .inl ⟨_, rfl⟩
  case creation =>
    subst hr
    refine .inr (isReadOff_of_ofCall (fun call id a ha => ?_) h)
    obtain ⟨_, -, rfl⟩ := exists_of_readCreation ha
    exact List.mem_cons_self
  case property =>
    right
    obtain rfl | rfl | rfl | rfl := hr
    · refine isReadOff_of_ofCall (fun call id a ha => ?_) h
      obtain ⟨-, _, _, -, -, rfl⟩ := exists_of_readText ha
      exact List.mem_cons_self
    · refine isReadOff_of_ofCall (fun call id a ha => ?_) h
      obtain ⟨-, _, _, _, _, -, -, -, rfl⟩ := exists_of_readSize ha
      exact List.mem_cons_self
    · refine isReadOff_of_ofCall (fun call id a ha => ?_) h
      obtain ⟨-, _, _, -, rfl⟩ := exists_of_readValue ha
      exact List.mem_cons_self
    · refine isReadOff_of_ofCall (fun call id a ha => ?_) h
      obtain ⟨-, _, _, -, rfl⟩ := exists_of_readRange ha
      exact List.mem_cons_self
  case style =>
    right
    obtain rfl | rfl := hr
    · refine isReadOff_of_ofCall (fun call id a ha => ?_) h
      obtain ⟨-, _, _, _, -, -, rfl⟩ := exists_of_readKnownStyle ha
      exact List.mem_cons_self
    · refine isReadOff_of_ofCall (fun call id a ha => ?_) h
      obtain ⟨-, _, _, _, -, -, rfl⟩ := exists_of_readOtherStyle ha
      exact List.mem_cons_of_mem _ List.mem_cons_self
  case layout =>
    right
    obtain rfl | rfl | rfl := hr
    · refine isReadOff_of_ofCall (fun call id a ha => ?_) h
      obtain ⟨-, _, _, _, -, rfl⟩ := exists_of_readAlign ha
      exact List.mem_cons_self
    · refine isReadOff_of_ofCall (fun call id a ha => ?_) h
      obtain ⟨-, -, rfl⟩ := exists_of_readCenter ha
      exact List.mem_cons_self
    · refine isReadOff_of_ofCall (fun call id a ha => ?_) h
      obtain ⟨-, _, _, -, rfl⟩ := exists_of_readPosition ha
      exact List.mem_cons_self

end Recognizer

/-! ## Source texts -/

deriving instance DecidableEq for Call

namespace Extraction

/-- A pattern finds a call in the code of a line of a source text. -/
def Finds (source : Text) (pattern : CallPattern) (call : Call) : Prop :=
  ∃ l ∈ codeLines source.lines, pattern.find? l.2 = some call

instance (source : Text) (pattern : CallPattern) (call : Call) :
    Decidable (Finds source pattern call) :=
  inferInstanceAs (Decidable (∃ l ∈ codeLines source.lines, pattern.find? l.2 = some call))

variable {source : Text} {f : Fact}

/-- **Every fact of a source text but a declaration was read off a call in it.** -/
theorem exists_reading_of_mem_facts (h : f ∈ facts .standard source) :
    (∃ type, f.assertion = .declared type) ∨ ∃ p ∈ f.assertion.readings, ∃ call,
      Finds source p.1 call ∧ p.2 call = .ok (some (f.identifier, f.assertion)) := by
  obtain ⟨e, he, hf⟩ := List.mem_filterMap.1 h
  rw [Event.eq_fact_of_fact? hf] at he
  obtain ⟨l, hl, he⟩ := List.mem_flatMap.1 he
  obtain ⟨c, r, hr, hrun⟩ := Registry.exists_of_mem_lineEvents he
  rcases Recognizer.isReadOff_standard hr hrun with hdeclared | ⟨p, hp, call, hcall, hread⟩
  · exact .inl hdeclared
  · exact .inr ⟨p, hp, call, ⟨l, List.mem_of_mem_filter hl, hcall⟩, hread⟩

theorem exists_call_of_size (hf : f ∈ facts .standard source) {width height : Size}
    (h : f.assertion = .size width height) :
    ∃ call w u, Finds source sizePattern call ∧ call.arguments = [f.identifier, w, u] ∧
      Size.ofSource w = .ok width ∧ Size.ofSource u = .ok height := by
  rcases exists_reading_of_mem_facts hf with ⟨type, ha⟩ | ⟨p, hp, call, hcall, hread⟩
  · cases h.symm.trans ha
  · rw [h] at hp hread
    cases List.mem_singleton.1 hp
    obtain ⟨-, w, u, width, height, harguments, hw, hu, ha⟩ := exists_of_readSize hread
    cases ha
    exact ⟨call, w, u, hcall, harguments, hw, hu⟩

theorem exists_call_of_value (hf : f ∈ facts .standard source) {v : Value}
    (h : f.assertion = .value v) :
    ∃ call t rest, Finds source valuePattern call ∧ call.arguments = f.identifier :: t :: rest ∧
      v = (Operand.ofSource t).toValue := by
  rcases exists_reading_of_mem_facts hf with ⟨type, ha⟩ | ⟨p, hp, call, hcall, hread⟩
  · cases h.symm.trans ha
  · rw [h] at hp hread
    cases List.mem_singleton.1 hp
    obtain ⟨-, t, rest, harguments, ha⟩ := exists_of_readValue hread
    cases ha
    exact ⟨call, t, rest, hcall, harguments, rfl⟩

theorem exists_call_of_range (hf : f ∈ facts .standard source) {rangeMin rangeMax : Value}
    (h : f.assertion = .range rangeMin rangeMax) :
    ∃ call t u, Finds source rangePattern call ∧ call.arguments = [f.identifier, t, u] ∧
      rangeMin = (Operand.ofSource t).toValue ∧ rangeMax = (Operand.ofSource u).toValue := by
  rcases exists_reading_of_mem_facts hf with ⟨type, ha⟩ | ⟨p, hp, call, hcall, hread⟩
  · cases h.symm.trans ha
  · rw [h] at hp hread
    cases List.mem_singleton.1 hp
    obtain ⟨-, t, u, harguments, ha⟩ := exists_of_readRange hread
    cases ha
    exact ⟨call, t, u, hcall, harguments, rfl, rfl⟩

/-- A known style is read by the reader of known styles only. -/
theorem exists_call_of_style (hf : f ∈ facts .standard source) {k : StyleKey} {v : Value}
    (h : f.assertion = .style k.name v) :
    ∃ call t rest, Finds source knownStylePattern call ∧ call.groups = [k.name] ∧
      call.arguments = f.identifier :: t :: rest ∧ v = .text (k.ofSource t) := by
  rcases exists_reading_of_mem_facts hf with ⟨type, ha⟩ | ⟨p, hp, call, hcall, hread⟩
  · cases h.symm.trans ha
  · rw [h] at hp hread
    rcases List.mem_cons.1 hp with rfl | hp
    · obtain ⟨-, j, t, rest, hgroups, harguments, ha⟩ := exists_of_readKnownStyle hread
      obtain ⟨hname, rfl⟩ := Assertion.style.inj ha
      obtain rfl := StyleKey.name_injective hname
      exact ⟨call, t, rest, hcall, hgroups, harguments, rfl⟩
    · cases List.mem_singleton.1 hp
      cases (ofName?_of_readOtherStyle hread).symm.trans k.ofName?_name

/-! ## Calls that are facts -/

section Calls

variable {code id : Text} {call : Call} {number : Int}

/-- A line in which a pattern of the library finds a call is not passed over. -/
theorem mayCall_of_find? {pattern : CallPattern} (hname : ("lv_" : Text) <+: pattern.name.first)
    (h : pattern.find? code = some call) : mayCall code = true := by
  rw [mayCall, Text.hasInfix_iff]
  by_contra hnot
  have hsearch := CallPattern.search?_of_not_infix
    (fun hfirst => hnot (hname.isInfix.trans hfirst)) false
  rw [CallPattern.find?, hsearch] at h
  cases h

/-- **What the first successful recognizer of a category reads off a call** is a fact. -/
theorem mem_factsOf_of_call {c : Category} {before after : List Recognizer} {r : Recognizer}
    {pattern : CallPattern} {read : Call → Except Fault (Option (Text × Assertion))}
    (hcategory : Registry.standard.recognizers c = before ++ r :: after)
    (hrun : r.run = ofCall pattern read) (hname : ("lv_" : Text) <+: pattern.name.first)
    (hbefore : ∀ q ∈ before, q.find? code number = none) (hcall : pattern.find? code = some call)
    {a : Assertion} (hread : read call = .ok (some (id, a))) :
    ⟨id, .integer number, a⟩ ∈ factsOf .standard code number := by
  have hfound : r.find? code number = some ⟨id, .integer number, a⟩ := by
    rw [Recognizer.find?, hrun, toOption_ofCall, hcall, Option.bind_some, hread]
    rfl
  have hnone : before.findSome? (fun q => q.find? code number) = none :=
    List.findSome?_eq_none_iff.2 hbefore
  rw [factsOf, if_pos (mayCall_of_find? hname hcall), Registry.lineFacts_eq, List.mem_filterMap]
  refine ⟨c, by cases c <;> decide, ?_⟩
  rw [hcategory, findFirst?, List.findSome?_append, hnone, Option.none_or, List.findSome?_cons,
    hfound]

variable {t u : Text} {rest : List Text} (hid : id.isIdentifier = true)
include hid

/-- The setter of a size is a fact if no text is set before it. -/
theorem size_mem_factsOf {width height : Size} (hcall : sizePattern.find? code = some call)
    (harguments : call.arguments = [id, t, u]) (ht : Size.ofSource t = .ok width)
    (hu : Size.ofSource u = .ok height) (hbefore : ∀ q ∈ [text], q.find? code number = none) :
    ⟨id, .integer number, .size width height⟩ ∈ factsOf .standard code number := by
  refine mem_factsOf_of_call (c := .property) (r := size) rfl rfl (by decide) hbefore hcall ?_
  rw [readSize, harguments]
  simp only [hid, if_true, ht, hu]
  rfl

theorem value_mem_factsOf (hcall : valuePattern.find? code = some call)
    (harguments : call.arguments = id :: t :: rest)
    (hbefore : ∀ q ∈ [text, size], q.find? code number = none) :
    ⟨id, .integer number, .value (Operand.ofSource t).toValue⟩ ∈ factsOf .standard code number := by
  refine mem_factsOf_of_call (c := .property) (r := value) rfl rfl (by decide) hbefore hcall ?_
  rw [readValue, harguments]
  simp only [about, hid, if_true]

theorem range_mem_factsOf (hcall : rangePattern.find? code = some call)
    (harguments : call.arguments = [id, t, u])
    (hbefore : ∀ q ∈ [text, size, value], q.find? code number = none) :
    ⟨id, .integer number, .range (Operand.ofSource t).toValue (Operand.ofSource u).toValue⟩ ∈
      factsOf .standard code number := by
  refine mem_factsOf_of_call (c := .property) (r := range) rfl rfl (by decide) hbefore hcall ?_
  rw [readRange, harguments]
  simp only [about, hid, if_true]

/-- The setter of a known style is always a fact. -/
theorem style_mem_factsOf {k : StyleKey} (hcall : knownStylePattern.find? code = some call)
    (hgroups : call.groups = [k.name]) (harguments : call.arguments = id :: t :: rest) :
    ⟨id, .integer number, .style k.name (.text (k.ofSource t))⟩ ∈
      factsOf .standard code number := by
  have hfirst : Registry.standard.recognizers .style = [] ++ knownStyle :: [otherStyle] := rfl
  refine mem_factsOf_of_call hfirst rfl (by decide) nofun hcall ?_
  rw [readKnownStyle, hgroups, harguments]
  simp only [StyleKey.ofName?_name, Option.bind_some, about, hid, if_true]

end Calls

end Extraction

end LvglForest
