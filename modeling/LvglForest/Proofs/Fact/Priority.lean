import LvglForest.Proofs.Fact.Report

/-!
# Registered recognizers

A registration to the name of a category adds one recognizer to it, and any other registration is
refused and changes nothing (`Registry.register_eq_ok_iff`). So a category has the recognizers that
are registered to its name, in the order of the registrations
(`Registry.recognizers_ofRegistrations`).

On a line, the first one of them that finds a fact gives the fact of its category. What fails is
passed over like what finds nothing, so failures show as warnings in the log alone, whatever
recognizers fail and wherever they do (`Registry.extractLine_ofRegistrations`). That holds as long
as they can be reported: the failure of one without a name ends the work
(`Registry.extractLine_unlike_silence`).
-/

namespace LvglForest

/-! ## Registrations -/

theorem Value.isText_eq_true_iff {t : Text} {v : Value} : v.isText t = true ↔ v = .text t := by
  cases v <;> simp [isText]

theorem Category.ofName?_eq_some_iff {t : Text} {c : Category} :
    ofName? t = some c ↔ t = c.name := by
  constructor
  · intro h
    have hname := List.find?_some h
    rw [decide_eq_true_eq] at hname
    exact hname.symm
  · rintro rfl
    cases c <;> rfl

theorem Category.name_injective : Function.Injective name := fun _ _ h =>
  Option.some.inj ((ofName?_eq_some_iff.2 rfl).symm.trans (ofName?_eq_some_iff.2 h))

namespace Registry

/-- The recognizers that are registered to the name of a category. -/
def registeredTo (c : Category) (rs : List (Value × Recognizer)) : List Recognizer :=
  (rs.filter fun (category, _) => category.isText c.name).map Prod.snd

theorem registeredTo_cons (c : Category) (category : Value) (r : Recognizer)
    (rs : List (Value × Recognizer)) :
    registeredTo c ((category, r) :: rs) =
      (if category.isText c.name then [r] else []) ++ registeredTo c rs := by
  by_cases h : category.isText c.name = true <;> simp [registeredTo, h]

/-- Registers a recognizer. A registration that is refused changes nothing. -/
def take (registry : Registry) (category : Value) (r : Recognizer) : Registry :=
  (registry.register category r).toOption.getD registry

/-- The registry after registrations one after another. -/
def ofRegistrations (rs : List (Value × Recognizer)) : Registry :=
  rs.foldl (fun registry (category, r) => registry.take category r) {}

theorem register_text (registry : Registry) (t : Text) (r : Recognizer) :
    registry.register (.text t) r =
      (Category.ofName? t).elim (.error (.unknownCategory t)) fun c => .ok (registry.add c r) := by
  have htext : Value.isText t (.text t) = true := Value.isText_eq_true_iff.2 rfl
  simp only [register, Value.checkHashable, Value.display, bind, Except.bind, htext]
  cases Category.ofName? t <;> rfl

/-- A registration is accepted exactly under the name of a category. -/
theorem register_eq_ok_iff {registry registry' : Registry} {category : Value} {r : Recognizer} :
    registry.register category r = .ok registry' ↔
      ∃ c : Category, category = .text c.name ∧ registry' = registry.add c r := by
  constructor
  · intro h
    obtain ⟨-, -, h'⟩ := exists_of_bind_eq_ok h
    obtain ⟨name, -, h'⟩ := exists_of_bind_eq_ok h'
    cases category with
    | text t =>
      rw [register_text] at h
      cases hc : Category.ofName? t with
      | none =>
        rw [hc] at h
        cases h
      | some c =>
        rw [hc] at h
        cases h
        exact ⟨c, by rw [Category.ofName?_eq_some_iff.1 hc], rfl⟩
    | _ => cases h'
  · rintro ⟨c, rfl, rfl⟩
    rw [register_text, Category.ofName?_eq_some_iff.2 rfl]
    rfl

/-- **One registration** adds a recognizer behind those of the category it names. -/
theorem recognizers_take (registry : Registry) (category : Value) (r : Recognizer) (c : Category) :
    (registry.take category r).recognizers c =
      registry.recognizers c ++ if category.isText c.name then [r] else [] := by
  cases htaken : registry.register category r with
  | ok registry' =>
    obtain ⟨d, rfl, rfl⟩ := register_eq_ok_iff.1 htaken
    rw [take, htaken]
    show (if c = d then registry.recognizers c ++ [r] else registry.recognizers c) = _
    have hiff : Value.isText c.name (.text d.name) = true ↔ c = d := by
      rw [Value.isText_eq_true_iff, Value.text.injEq, Category.name_injective.eq_iff, eq_comm]
    simp only [hiff]
    split
    · rfl
    · rw [List.append_nil]
  | error fault =>
    have hnot : ¬ category.isText c.name = true := by
      rw [Value.isText_eq_true_iff]
      intro hcategory
      rw [register_eq_ok_iff.2 ⟨c, hcategory, rfl⟩] at htaken
      cases htaken
    rw [take, htaken, if_neg hnot, List.append_nil]
    rfl

theorem recognizers_ofRegistrations (rs : List (Value × Recognizer)) (c : Category) :
    (ofRegistrations rs).recognizers c = registeredTo c rs := by
  have hfoldl (registry : Registry) :
      (rs.foldl (fun registry (category, r) => registry.take category r) registry).recognizers c =
        registry.recognizers c ++ registeredTo c rs := by
    induction rs generalizing registry with
    | nil => exact (List.append_nil _).symm
    | cons a rs ih =>
      obtain ⟨category, r⟩ := a
      rw [List.foldl_cons, ih, recognizers_take, List.append_assoc, registeredTo_cons]
  exact (hfoldl {}).trans (List.nil_append _)

end Registry

/-! ## Failures -/

namespace Recognizer

/-- Another recognizer does the same, but on some of the lines on which this one fails it finds
nothing. -/
structure IsQuieted (r q : Recognizer) : Prop where
  name : q.name = r.name
  remarks : q.remarks = r.remarks
  run : ∀ line number, q.run line number = r.run line number ∨
    (∃ fault, r.run line number = .error fault) ∧ q.run line number = .ok none

end Recognizer

/-- Of the events on a line some failures are left out. -/
structure Event.AreQuieted (es quieted : List Event) : Prop where
  subset : quieted ⊆ es
  rest : quieted.filter (!·.isFailure) = es.filter (!·.isFailure)

namespace Event

theorem AreQuieted.refl (es : List Event) : AreQuieted es es := ⟨List.Subset.refl es, rfl⟩

theorem AreQuieted.cons {es quieted : List Event} (e : Event) (h : AreQuieted es quieted) :
    AreQuieted (e :: es) (e :: quieted) where
  subset := List.cons_subset_cons e h.subset
  rest := by rw [List.filter_cons, List.filter_cons, h.rest]

/-- A failure is left out. -/
theorem AreQuieted.leaveOut {e : Event} (he : e.isFailure = true) {es quieted : List Event}
    (h : AreQuieted es quieted) : AreQuieted (e :: es) quieted where
  subset := List.subset_cons_of_subset e h.subset
  rest := h.rest.trans (List.filter_cons_of_neg (by simp [he])).symm

theorem AreQuieted.flatMap {α : Type} {events quieted : α → List Event}
    (h : ∀ a, AreQuieted (events a) (quieted a)) (as : List α) :
    AreQuieted (as.flatMap events) (as.flatMap quieted) where
  subset e he := by
    obtain ⟨a, ha, he⟩ := List.mem_flatMap.1 he
    exact List.mem_flatMap.2 ⟨a, ha, (h a).subset he⟩
  rest := by simp only [List.filter_flatMap, (h _).rest]

/-- Failures give no facts. -/
theorem fact?_of_isFailure (es : List Event) :
    (es.filter (!·.isFailure)).filterMap fact? = es.filterMap fact? := by
  rw [List.filterMap_filter]
  refine congrArg (List.filterMap · es) (funext fun e => ?_)
  cases e <;> rfl

end Event

namespace Extraction

/-- The log without the warnings. -/
def withoutWarnings (log : List LogRecord) : List LogRecord := log.filter (·.level ≠ .warning)

/-- **Failures that are left out** make no difference but to the warnings, if all that happens can
be reported. -/
theorem report_quieted {es quieted : List Event} (h : Event.AreQuieted es quieted)
    (hall : ∀ e ∈ es, e.CanReport) :
    (report quieted).1 = (report es).1 ∧
      withoutWarnings (report quieted).2 = withoutWarnings (report es).2 := by
  have hquieted : ∀ e ∈ quieted, e.CanReport := fun e he => hall e (h.subset he)
  have hfacts : quieted.filterMap Event.fact? = es.filterMap Event.fact? := by
    rw [← Event.fact?_of_isFailure, h.rest, Event.fact?_of_isFailure]
  rw [report_of_canReport hall, report_of_canReport hquieted]
  refine ⟨congrArg Except.ok hfacts, ?_⟩
  calc withoutWarnings (records quieted)
      = records (quieted.filter (!·.isFailure)) := records_without_warnings hquieted
    _ = records (es.filter (!·.isFailure)) := congrArg records h.rest
    _ = withoutWarnings (records es) := (records_without_warnings hall).symm

end Extraction

namespace Registry

open Extraction

/-- **One line:** whether a recognizer fails or finds nothing, the others are tried all the same. -/
theorem tryInTurn_quieted {rs qs : List Recognizer} (h : List.Forall₂ Recognizer.IsQuieted rs qs)
    (line : Text) (number : Int) :
    Event.AreQuieted (tryInTurn line number rs) (tryInTurn line number qs) := by
  induction h with
  | nil => exact .refl _
  | @cons r q rs qs hq _ ih =>
    rw [tryInTurn, tryInTurn]
    rcases hq.run line number with hsame | ⟨⟨fault, hfails⟩, hnone⟩
    · rw [hsame, hq.name, hq.remarks]
      rcases r.run line number with fault | none | f
      · exact ih.cons _
      · exact ih
      · exact .refl _
    · rw [hnone, hfails]
      exact ih.leaveOut rfl

/-- Recognizers are registered to the same names, and some of them are quieted. -/
def AreQuieted (rs qs : List (Value × Recognizer)) : Prop :=
  List.Forall₂ (fun a b => a.1 = b.1 ∧ a.2.IsQuieted b.2) rs qs

theorem AreQuieted.registeredTo {rs qs : List (Value × Recognizer)} (h : AreQuieted rs qs)
    (c : Category) :
    List.Forall₂ Recognizer.IsQuieted (registeredTo c rs) (registeredTo c qs) := by
  induction h with
  | nil => exact .nil
  | @cons a b rs qs hab _ ih =>
    obtain ⟨category, r⟩ := a
    obtain ⟨_, q⟩ := b
    obtain ⟨rfl, hq⟩ := hab
    rw [registeredTo_cons, registeredTo_cons]
    split
    · exact .cons hq ih
    · exact ih

theorem AreQuieted.lineEvents {rs qs : List (Value × Recognizer)} (h : AreQuieted rs qs)
    (line : Text) (number : Int) :
    Event.AreQuieted ((ofRegistrations rs).lineEvents line number)
      ((ofRegistrations qs).lineEvents line number) := by
  refine .flatMap (fun c => ?_) Category.all
  rw [recognizers_ofRegistrations, recognizers_ofRegistrations]
  exact tryInTurn_quieted (h.registeredTo c) line number

theorem AreQuieted.events {rs qs : List (Value × Recognizer)} (h : AreQuieted rs qs)
    (source : Text) :
    Event.AreQuieted (events (ofRegistrations rs) source) (events (ofRegistrations qs) source) :=
  .flatMap (fun l : Int × Text => h.lineEvents l.2 l.1) _

theorem lineFacts_ofRegistrations (rs : List (Value × Recognizer)) (line : Text) (number : Int) :
    ∃ found : Category → Option Fact,
      (ofRegistrations rs).lineFacts line number = Category.all.filterMap found ∧
      ∀ c f, found c = some f ↔
        ∃ before r after, registeredTo c rs = before ++ r :: after ∧
          r.run line number = .ok (some f) ∧
          ∀ q ∈ before, q.run line number = .ok none ∨
            ∃ fault, q.run line number = .error fault := by
  refine ⟨fun c => Recognizer.findFirst? (registeredTo c rs) line number, ?_, fun c f => ?_⟩
  · simp only [lineFacts_eq, recognizers_ofRegistrations]
  · simp only [Recognizer.findFirst?, List.findSome?_eq_some_iff, Recognizer.find?_eq_some_iff,
      Recognizer.find?_eq_none_iff]

/-- **Recognizers are tried in the order of their registration, and failures are isolated.** Where
all that the recognizers that are tried do can be reported, a line gives in turn of each category
the fact of the first recognizer registered to it that finds one, and a source gives the facts of
its lines. Where recognizers fail, everything but the warnings in the log is as if they found
nothing. -/
theorem extractLine_ofRegistrations (rs : List (Value × Recognizer)) :
    (∀ line number, (ofRegistrations rs).CanReport line number →
      ∃ found : Category → Option Fact,
        (extractLine (ofRegistrations rs) line number).1 = .ok (Category.all.filterMap found) ∧
        ∀ c f, found c = some f ↔
          ∃ before r after, registeredTo c rs = before ++ r :: after ∧
            r.run line number = .ok (some f) ∧
            ∀ q ∈ before, q.run line number = .ok none ∨
              ∃ fault, q.run line number = .error fault) ∧
    (∀ source, (ofRegistrations rs).CanReportAll source →
      ∃ factsOf : Int × Text → List Fact,
        (∀ l ∈ codeLines source.lines, mayCall l.2 = true →
          (extractLine (ofRegistrations rs) l.2 l.1).1 = .ok (factsOf l)) ∧
        (extract (ofRegistrations rs) source).1 =
          .ok (((codeLines source.lines).filter fun l => mayCall l.2).flatMap factsOf)) ∧
    ∀ qs, AreQuieted rs qs →
      (∀ line number, (ofRegistrations rs).CanReport line number →
        (extractLine (ofRegistrations qs) line number).1 =
          (extractLine (ofRegistrations rs) line number).1 ∧
        withoutWarnings (extractLine (ofRegistrations qs) line number).2 =
          withoutWarnings (extractLine (ofRegistrations rs) line number).2) ∧
      ∀ source, (ofRegistrations rs).CanReportAll source →
        (extract (ofRegistrations qs) source).1 = (extract (ofRegistrations rs) source).1 ∧
        withoutWarnings (extract (ofRegistrations qs) source).2 =
          withoutWarnings (extract (ofRegistrations rs) source).2 := by
  have hline (line number) (h : (ofRegistrations rs).CanReport line number) :
      (extractLine (ofRegistrations rs) line number).1 =
        .ok ((ofRegistrations rs).lineFacts line number) :=
    report_eq_ok_iff.2 ⟨canReport_lineEvents_iff.2 h, rfl⟩
  refine ⟨fun line number h => ?_, fun source h => ?_, fun qs hquieted => ?_⟩
  · obtain ⟨found, hfound, hfirst⟩ := lineFacts_ofRegistrations rs line number
    exact ⟨found, (hline line number h).trans (congrArg _ hfound), hfirst⟩
  · refine ⟨fun l => (ofRegistrations rs).lineFacts l.2 l.1,
      fun l hl hcall => hline l.2 l.1 (h l hl hcall), ?_⟩
    refine report_eq_ok_iff.2 ⟨canReport_events_iff.2 h, ?_⟩
    rw [events, List.filterMap_flatMap]
    rfl
  · exact ⟨fun line number h =>
        report_quieted (hquieted.lineEvents line number) (canReport_lineEvents_iff.2 h),
      fun source h => report_quieted (hquieted.events source) (canReport_events_iff.2 h)⟩

/-- A recognizer that fails on the lines of some numbers and finds a centring on all others, or that
finds nothing where it would fail. -/
def moody (name : Text) (fails : List Int) (quieted : Bool) : Recognizer where
  name := .ok name
  run := fun _ number =>
    if number ∈ fails then if quieted then .ok none else .error .noIntegerPart
    else .ok (some ⟨name, .integer number, .center⟩)

theorem canReport_moody (name : Text) (fails : List Int) (quieted : Bool) (line : Text)
    {number : Int} (h : Decimal.Converts number) :
    (moody name fails quieted).CanReport line number where
  named _ _ := ⟨name, rfl⟩
  described f hf := by
    have hfound : f = ⟨name, .integer number, .center⟩ := by
      simp only [moody] at hf
      split at hf
      · split at hf <;> cases hf
      · cases hf
        rfl
    rw [hfound]
    exact Fact.exists_describe trivial (Value.canShow_integer h)

/-- Two categories whose first recognizers fail, on different lines, before another one, a third
that fails on every line, and a name that is no category. -/
theorem extractLine_ofRegistrations_moody :
    let registrations (quieted : Bool) : List (Value × Recognizer) :=
      [(.text "style", moody "d" [1, 2] quieted), (.text "creation", moody "a" [1] quieted),
        (.text "other", moody "x" [] quieted), (.text "creation", moody "b" [] quieted),
        (.text "layout", moody "e" [2] quieted), (.text "layout", moody "f" [] quieted)]
    let source : Text := "lv_1;\nlv_2;"
    (ofRegistrations (registrations false)).CanReport "lv_1;" 1 ∧
      (ofRegistrations (registrations false)).CanReportAll source ∧
      AreQuieted (registrations false) (registrations true) ∧
      (extract (ofRegistrations (registrations false)) source).1 =
        .ok [⟨"b", .integer 1, .center⟩, ⟨"e", .integer 1, .center⟩, ⟨"a", .integer 2, .center⟩,
          ⟨"f", .integer 2, .center⟩] ∧
      (extract (ofRegistrations (registrations true)) source).1 =
        (extract (ofRegistrations (registrations false)) source).1 ∧
      ∃ found : Category → Option Fact,
        (extractLine (ofRegistrations (registrations false)) "lv_1;" 1).1 =
          .ok (Category.all.filterMap found) := by
  intro registrations source
  have hmoody (name : Text) (fails : List Int) :
      (moody name fails false).IsQuieted (moody name fails true) := by
    refine ⟨rfl, rfl, fun line number => ?_⟩
    by_cases h : number ∈ fails
    · exact .inr ⟨⟨.noIntegerPart, by simp [moody, h]⟩, by simp [moody, h]⟩
    · exact .inl (by simp [moody, h])
  have hquieted : AreQuieted (registrations false) (registrations true) := by
    simp [AreQuieted, registrations, hmoody]
  have hreport (line : Text) {number : Int} (h : Decimal.Converts number) :
      (ofRegistrations (registrations false)).CanReport line number := by
    refine canReport_of_forall fun c r hr => ?_
    rw [recognizers_ofRegistrations] at hr
    obtain ⟨⟨category, q⟩, hq, rfl⟩ := List.mem_map.1 hr
    have hq := List.mem_of_mem_filter hq
    simp only [registrations, List.mem_cons, Prod.mk.injEq, List.not_mem_nil, or_false] at hq
    obtain ⟨-, rfl⟩ | ⟨-, rfl⟩ | ⟨-, rfl⟩ | ⟨-, rfl⟩ | ⟨-, rfl⟩ | ⟨-, rfl⟩ := hq <;>
      exact canReport_moody _ _ _ line h
  have hall : (ofRegistrations (registrations false)).CanReportAll source := by
    intro l hl _
    have hnumbers : ∀ l ∈ codeLines source.lines, Decimal.Converts l.1 := by decide +kernel
    exact hreport l.2 (hnumbers l hl)
  obtain ⟨hline, -, hsame⟩ := extractLine_ofRegistrations (registrations false)
  have hone : (ofRegistrations (registrations false)).CanReport "lv_1;" 1 :=
    hreport "lv_1;" (by decide)
  obtain ⟨found, hfound, -⟩ := hline "lv_1;" 1 hone
  exact ⟨hone, hall, hquieted, rfl, ((hsame _ hquieted).2 source hall).1, found, hfound⟩

/-- A recognizer that fails shows as a warning where a silent one does not. If it has no name, the
work ends with another fault, and so it does at a fact that cannot be described. -/
theorem extractLine_unlike_silence :
    let failing (name : Except Fault Text) : Recognizer :=
      { name, run := fun _ _ => .error (.other "boom") }
    let silent : Recognizer := { name := .ok "func", run := fun _ _ => .ok none }
    let finding (number : Nat) : Recognizer :=
      { name := .ok "func", run := fun _ _ => .ok (some ⟨"x", .integer number, .center⟩) }
    let read (r : Recognizer) (number : Nat) : Except Fault (List Fact) × List LogLevel :=
      let registry := ofRegistrations [(.text "layout", r), (.text "layout", finding number)]
      let (facts, log) := extractLine registry "lv_;" 1
      (facts, log.map LogRecord.level)
    let nameless : Fault := .noMember "functools.partial" "__name__"
    read silent 1 = (.ok [⟨"x", .integer 1, .center⟩], [.debug]) ∧
      read (failing (.ok "func")) 1 = (.ok [⟨"x", .integer 1, .center⟩], [.warning, .debug]) ∧
      read (failing (.error nameless)) 1 = (.error nameless, []) ∧
      read silent (10 ^ Decimal.digitLimit) = (.error (.digitLimit none), []) := by
  intro failing silent finding read nameless
  have hlong (n : Nat) (h : ¬ Decimal.Converts n) :
      read silent n = (.error (.digitLimit none), []) := by
    have hdescribe : Fact.describe ⟨"x", .integer n, .center⟩ = .error (.digitLimit none) := by
      simp only [Fact.describe, Assertion.detail, Value.display, Value.written,
        Decimal.write_of_not_converts h, bind, Except.bind]
    have hreport : report [.fact ⟨"x", .integer n, .center⟩] = (.error (.digitLimit none), []) := by
      rw [report, record, hdescribe]
      rfl
    show (let (facts, log) := report [.fact ⟨"x", .integer n, .center⟩]
      (facts, log.map LogRecord.level)) = _
    rw [hreport]
    rfl
  refine ⟨rfl, rfl, rfl, hlong _ ?_⟩
  rw [Decimal.converts_iff, Int.natAbs_natCast]
  exact Nat.lt_irrefl _

end Registry

end LvglForest
