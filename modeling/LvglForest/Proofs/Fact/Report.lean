import LvglForest.Proofs.Fact.Division
import LvglForest.Proofs.Fact.Source
import LvglForest.Proofs.Fault

/-!
# What can be reported

Reading a line or a source ends with its facts exactly if every event on the way can be reported
(`Extraction.report_eq_ok_iff`). On a line this is a condition on the recognizers that are tried:
one that fails has a name, and what one finds can be described
(`Registry.canReport_lineEvents_iff`).

The recognizers of the library have names, and what they find can be described as long as the number
of its line can be written, so a source text always gives its facts unless it has more lines than
that (`Extraction.extract_standard`).
-/

namespace LvglForest

/-- An event that can be reported. -/
def Event.CanReport (e : Event) : Prop := ∃ r, Extraction.record e = .ok r

/-- Whether an event is the failure of a recognizer. -/
def Event.isFailure : Event → Bool
  | .failure .. => true
  | _ => false

theorem Event.canReport_failure {number : Int} {recognizer : Except Fault Text} {line : Text}
    {fault : Fault} :
    (failure number recognizer line fault).CanReport ↔ ∃ name, recognizer = .ok name :=
  Fault.exists_map_iff

theorem Event.canReport_remark (t : Text) : (remark t).CanReport := ⟨_, rfl⟩

theorem Event.canReport_fact {f : Fact} : (fact f).CanReport ↔ ∃ t, f.describe = .ok t :=
  Fault.exists_map_iff

namespace Extraction

/-- The failures of recognizers are the warnings. -/
theorem level_of_record {e : Event} {r : LogRecord} (h : record e = .ok r) :
    r.level = .warning ↔ e.isFailure = true := by
  cases e with
  | failure number recognizer line fault =>
    obtain ⟨name, -, rfl⟩ := exists_of_map_eq_ok h
    exact iff_of_true rfl rfl
  | remark t =>
    cases h
    exact iff_of_false nofun nofun
  | fact f =>
    obtain ⟨t, -, rfl⟩ := exists_of_map_eq_ok h
    exact iff_of_false nofun nofun

/-- The records of those events that can be reported. -/
def records (es : List Event) : List LogRecord := es.filterMap fun e => (record e).toOption

theorem records_cons {e : Event} {r : LogRecord} (h : record e = .ok r) (es : List Event) :
    records (e :: es) = r :: records es := by
  simp only [records, List.filterMap_cons, h, Except.toOption]

theorem report_cons {e : Event} {r : LogRecord} (h : record e = .ok r) (es : List Event) :
    report (e :: es) = ((report es).1.map (e.fact?.toList ++ ·), r :: (report es).2) := by
  rw [report, h]

variable {es : List Event}

/-- **Events that can all be reported** give their facts, and the log has a record for each. -/
theorem report_of_canReport (h : ∀ e ∈ es, e.CanReport) :
    report es = (.ok (es.filterMap Event.fact?), records es) := by
  induction es with
  | nil => rfl
  | cons e es ih =>
    rw [List.forall_mem_cons] at h
    obtain ⟨r, hr⟩ := h.1
    rw [report_cons hr, ih h.2, records_cons hr, List.filterMap_cons]
    cases e.fact? <;> rfl

/-- **The first event that cannot be reported** ends the work. -/
theorem report_append_cons {before after : List Event} {e : Event} {fault : Fault}
    (hbefore : ∀ e ∈ before, e.CanReport) (he : record e = .error fault) :
    report (before ++ e :: after) = (.error fault, records before) := by
  induction before with
  | nil =>
    rw [List.nil_append, report, he]
    rfl
  | cons d before ih =>
    rw [List.forall_mem_cons] at hbefore
    obtain ⟨r, hr⟩ := hbefore.1
    rw [List.cons_append, report_cons hr, ih hbefore.2, records_cons hr]
    rfl

/-- Events give facts exactly if all of them can be reported. -/
theorem report_eq_ok_iff {fs : List Fact} :
    (report es).1 = .ok fs ↔ (∀ e ∈ es, e.CanReport) ∧ fs = es.filterMap Event.fact? := by
  refine ⟨fun h => ?_, fun ⟨hall, hfs⟩ => by rw [report_of_canReport hall, hfs]⟩
  have hall : ∀ e ∈ es, e.CanReport := by
    induction es generalizing fs with
    | nil => exact fun _ he => absurd he List.not_mem_nil
    | cons e es ih =>
      cases hr : record e with
      | error fault =>
        rw [report, hr] at h
        cases h
      | ok r =>
        rw [report_cons hr] at h
        obtain ⟨others, hothers, -⟩ := exists_of_map_eq_ok h
        exact List.forall_mem_cons.2 ⟨⟨r, hr⟩, ih hothers⟩
  rw [report_of_canReport hall] at h
  exact ⟨hall, (Except.ok.inj h).symm⟩

/-- The records that are no warnings are those of the events that are no failures. -/
theorem records_without_warnings (h : ∀ e ∈ es, e.CanReport) :
    (records es).filter (·.level ≠ .warning) = records (es.filter (!·.isFailure)) := by
  induction es with
  | nil => rfl
  | cons e es ih =>
    rw [List.forall_mem_cons] at h
    obtain ⟨r, hr⟩ := h.1
    have hlevel := level_of_record hr
    rw [records_cons hr]
    cases hfailure : e.isFailure with
    | true =>
      rw [List.filter_cons_of_neg (by simp [hlevel.2 hfailure]),
        List.filter_cons_of_neg (by simp [hfailure])]
      exact ih h.2
    | false =>
      rw [List.filter_cons_of_pos (by simp [hlevel, hfailure]),
        List.filter_cons_of_pos (by simp [hfailure]), records_cons hr, ih h.2]

end Extraction

/-! ## Recognizers -/

/-- What a recognizer does with a line can be reported: if it fails, it has a name, and what it
finds can be described. -/
structure Recognizer.CanReport (r : Recognizer) (line : Text) (number : Int) : Prop where
  named : ∀ fault, r.run line number = .error fault → ∃ name, r.name = .ok name
  described : ∀ f, r.run line number = .ok (some f) → ∃ t, f.describe = .ok t

namespace Recognizer

variable {r : Recognizer} {line : Text} {number : Int}

theorem canReport_of_error {fault : Fault} (h : r.run line number = .error fault) :
    r.CanReport line number ↔ ∃ name, r.name = .ok name where
  mp hr := hr.named fault h
  mpr hname :=
    { named := fun _ _ => hname
      described := fun _ hf => nomatch h.symm.trans hf }

theorem canReport_of_none (h : r.run line number = .ok none) : r.CanReport line number where
  named _ hfault := nomatch h.symm.trans hfault
  described _ hf := nomatch h.symm.trans hf

theorem canReport_of_some {f : Fact} (h : r.run line number = .ok (some f)) :
    r.CanReport line number ↔ ∃ t, f.describe = .ok t where
  mp hr := hr.described f h
  mpr hdescribe :=
    { named := fun _ hfault => nomatch h.symm.trans hfault
      described := fun g hg => by
        cases h.symm.trans hg
        exact hdescribe }

end Recognizer

namespace Registry

/-- A recognizer is tried on a line: those before it in its category find nothing. -/
def Tries (registry : Registry) (r : Recognizer) (line : Text) (number : Int) : Prop :=
  ∃ c before after, registry.recognizers c = before ++ r :: after ∧
    ∀ q ∈ before, q.find? line number = none

/-- What the recognizers that are tried on a line do with it can be reported. -/
def CanReport (registry : Registry) (line : Text) (number : Int) : Prop :=
  ∀ r, registry.Tries r line number → r.CanReport line number

/-- What the recognizers that are tried do can be reported, on every line that is read. -/
def CanReportAll (registry : Registry) (source : Text) : Prop :=
  ∀ l ∈ Extraction.codeLines source.lines, Extraction.mayCall l.2 = true →
    registry.CanReport l.2 l.1

theorem canReport_tryInTurn_iff {line : Text} {number : Int} {rs : List Recognizer} :
    (∀ e ∈ tryInTurn line number rs, e.CanReport) ↔
      ∀ before r after, rs = before ++ r :: after →
        (∀ q ∈ before, q.find? line number = none) → r.CanReport line number := by
  induction rs with
  | nil => simp [tryInTurn]
  | cons r rs ih =>
    -- The recognizer in front is always tried, the others only if it finds nothing.
    have hsplit : (∀ before r' after, r :: rs = before ++ r' :: after →
        (∀ q ∈ before, q.find? line number = none) → r'.CanReport line number) ↔
        r.CanReport line number ∧ (r.find? line number = none →
          ∀ e ∈ tryInTurn line number rs, e.CanReport) := by
      rw [ih]
      constructor
      · refine fun h => ⟨h [] r rs rfl (List.forall_mem_nil _),
          fun hnone before r' after hrs hbefore => ?_⟩
        exact h (r :: before) r' after (congrArg _ hrs) (List.forall_mem_cons.2 ⟨hnone, hbefore⟩)
      · rintro ⟨hr, hrest⟩ before r' after hrs hbefore
        cases before with
        | nil =>
          obtain ⟨rfl, -⟩ := List.cons.inj hrs
          exact hr
        | cons q before =>
          obtain ⟨rfl, htail⟩ := List.cons.inj hrs
          rw [List.forall_mem_cons] at hbefore
          exact hrest hbefore.1 before r' after htail hbefore.2
    rw [hsplit, tryInTurn]
    rcases hrun : r.run line number with fault | none | f
    · have hnone : r.find? line number = none := Recognizer.find?_eq_none_iff.2 (.inr ⟨_, hrun⟩)
      rw [List.forall_mem_cons, Event.canReport_failure, Recognizer.canReport_of_error hrun]
      exact and_congr_right fun _ => ⟨fun h _ => h, fun h => h hnone⟩
    · have hnone : r.find? line number = none := Recognizer.find?_eq_none_iff.2 (.inl hrun)
      exact ⟨fun h => ⟨Recognizer.canReport_of_none hrun, fun _ => h⟩, fun h => h.2 hnone⟩
    · have hsome : r.find? line number = some f := Recognizer.find?_eq_some_iff.2 hrun
      rw [List.forall_mem_append, List.forall_mem_singleton, Event.canReport_fact,
        Recognizer.canReport_of_some hrun]
      refine ⟨fun h => ⟨h.2, fun hnone => ?_⟩, fun h => ⟨fun e he => ?_, h.1⟩⟩
      · cases hsome.symm.trans hnone
      · obtain ⟨t, -, rfl⟩ := List.mem_map.1 he
        exact Event.canReport_remark t

/-- **All that happens on a line can be reported** exactly if all that the recognizers that are
tried do with it can. -/
theorem canReport_lineEvents_iff {registry : Registry} {line : Text} {number : Int} :
    (∀ e ∈ registry.lineEvents line number, e.CanReport) ↔ registry.CanReport line number := by
  have hall (c : Category) : c ∈ Category.all := by cases c <;> decide
  simp only [lineEvents, List.mem_flatMap, hall, true_and]
  constructor
  · rintro h r ⟨c, before, after, hrs, hbefore⟩
    exact canReport_tryInTurn_iff.1 (fun e he => h e ⟨c, he⟩) before r after hrs hbefore
  · rintro h e ⟨c, he⟩
    exact canReport_tryInTurn_iff.2 (fun before r after hrs hbefore =>
      h r ⟨c, before, after, hrs, hbefore⟩) e he

theorem canReport_events_iff {registry : Registry} {source : Text} :
    (∀ e ∈ Extraction.events registry source, e.CanReport) ↔ registry.CanReportAll source := by
  simp only [Extraction.events, List.mem_flatMap, List.mem_filter]
  constructor
  · exact fun h l hl hcall => canReport_lineEvents_iff.1 fun e he => h e ⟨l, ⟨hl, hcall⟩, he⟩
  · rintro h e ⟨l, ⟨hl, hcall⟩, he⟩
    exact canReport_lineEvents_iff.2 (h l hl hcall) e he

end Registry

/-- What recognizers do with a line can be reported if that holds of each of them. -/
theorem Registry.canReport_of_forall {registry : Registry} {line : Text} {number : Int}
    (h : ∀ c, ∀ r ∈ registry.recognizers c, r.CanReport line number) :
    registry.CanReport line number := by
  rintro r ⟨c, before, after, hrs, -⟩
  refine h c r ?_
  rw [hrs]
  exact List.mem_append_right _ List.mem_cons_self

/-! ## The recognizers of the library -/

/-- A fact that source can say can be described if the number of its line can be written. -/
theorem Fact.exists_describe {f : Fact} (hf : f.assertion.IsSourced) (hline : f.line.CanShow) :
    ∃ t, f.describe = .ok t := by
  obtain ⟨line, hline⟩ := hline
  have hdetail : ∃ t, f.assertion.detail = .ok t := by
    cases ha : f.assertion with
    | created kind sourceName parent =>
      rw [ha] at hf
      obtain ⟨⟨kind, rfl, -⟩, parent, rfl⟩ := hf
      exact ⟨_, rfl⟩
    | style key v =>
      rw [ha] at hf
      obtain ⟨v, rfl⟩ := hf
      exact ⟨_, rfl⟩
    | _ => exact ⟨_, rfl⟩
  obtain ⟨detail, hdetail⟩ := hdetail
  rw [Fact.describe, hdetail, hline]
  exact ⟨_, rfl⟩

theorem Recognizer.exists_name_of_standard {c : Category} {r : Recognizer}
    (h : r ∈ Registry.standard.recognizers c) : ∃ name, r.name = .ok name := by
  cases c <;> simp only [Registry.standard, List.mem_cons, List.not_mem_nil, or_false] at h
  case declaration => exact h ▸ ⟨_, rfl⟩
  case creation => exact h ▸ ⟨_, rfl⟩
  case property => obtain rfl | rfl | rfl | rfl := h <;> exact ⟨_, rfl⟩
  case style => obtain rfl | rfl := h <;> exact ⟨_, rfl⟩
  case layout => obtain rfl | rfl | rfl := h <;> exact ⟨_, rfl⟩

namespace Registry

/-- **Whatever the library's recognizers do** with a line can be reported if the number of the line
can be written. -/
theorem canReport_standard (line : Text) {number : Int} (h : Decimal.Converts number) :
    standard.CanReport line number := by
  refine canReport_of_forall fun c r hr =>
    ⟨fun _ _ => Recognizer.exists_name_of_standard hr, fun f hf => ?_⟩
  have hline : f.line = .integer number :=
    notesNumber_standard hr line number f (Recognizer.find?_eq_some_iff.2 hf)
  refine Fact.exists_describe (Recognizer.findsSourced_standard hr line number f hf).assertion ?_
  rw [hline]
  exact Value.canShow_integer h

end Registry

namespace Extraction

theorem length_stripLines (inBlock : Bool) (ls : List Text) :
    (Comment.stripLines inBlock ls).length = ls.length := by
  induction ls generalizing inBlock with
  | nil => rfl
  | cons l ls ih => exact congrArg Nat.succ (ih _)

/-- The lines of code are numbered from one on. -/
theorem exists_number_of_mem_codeLines {ls : List Text} {l : Int × Text} (h : l ∈ codeLines ls) :
    ∃ n : Nat, l.1 = n ∧ 1 ≤ n ∧ n ≤ ls.length := by
  obtain ⟨⟨stripped, n⟩, hn, rfl⟩ := List.mem_map.1 h
  obtain ⟨hfirst, hlast, -⟩ := List.mem_zipIdx hn
  rw [length_stripLines, List.length_map] at hlast
  exact ⟨n, rfl, hfirst, by omega⟩

/-- **A source text** of fewer lines than numbers can be written for gives its facts. -/
theorem extract_standard {source : Text} (h : source.lines.length < 10 ^ Decimal.digitLimit) :
    (extract .standard source).1 = .ok (facts .standard source) := by
  refine report_eq_ok_iff.2 ⟨Registry.canReport_events_iff.2 fun l hl _ => ?_, rfl⟩
  obtain ⟨n, hn, -, hlast⟩ := exists_number_of_mem_codeLines hl
  refine Registry.canReport_standard l.2 ?_
  rw [hn]
  exact Decimal.converts_of_lt (lt_of_le_of_lt hlast h)

end Extraction

end LvglForest
