import LvglForest.Code.Generator
import LvglForest.Proofs.Code.Name

/-!
# The steps of generation and what is emitted

Going along a forest step by step makes the same statements, variables and skips as are emitted
(`Forest.run_generate`). The two lists of statements and of variables are kept side by side, and in
every state the variables are those that the statements create (`Generator.Agrees`), also in the one
that a fault leaves. There the widget at which the fault is has neither statements nor a variable,
while it may have some among what is emitted: at most one variable is emitted more
(`Forest.run_generate_of_fault`).
-/

namespace LvglForest

namespace Emissions

/-- Where nothing fails, a fault comes from what is emitted behind. -/
theorem fault?_append {es : Emissions} (h : es.fault? = none) (es' : Emissions) :
    fault? (es ++ es') = es'.fault? := by
  obtain ⟨xs, rfl⟩ := exists_of_fault? h
  clear h
  induction xs with
  | nil => rfl
  | cons x xs ih => exact ih

theorem fault?_append_of_fault {es : Emissions} {f : Fault} (h : es.fault? = some f)
    (es' : Emissions) : fault? (es ++ es') = some f := by
  induction es with
  | nil => cases h
  | cons e es ih =>
    cases e with
    | error g => exact h
    | ok x => exact ih h

theorem skips_append_of_fault {es : Emissions} {f : Fault} (h : es.fault? = some f)
    (es' : Emissions) : skips (es ++ es') = es.skips := by
  rw [skips, completed_append_of_fault h]
  rfl

end Emissions

namespace Widget

variable (d : Detail) (id parent : Text) (w : Widget)

/-- Nothing is skipped for a widget of a legal name, whether or not a fault ends what is emitted. -/
theorem skips_emissions : (w.emissions d id parent).skips = [] := by
  have hsettings := (Emissions.links_skips_of_quiet fun x hx =>
    (isSetting_settings id w x hx).isQuiet).2
  have hcreation : (w.creationEmissions d id parent).skips = [] := by
    unfold creationEmissions
    split
    · rfl
    · cases d with
      | concise => rfl
      | verbose => cases w.kind.display <;> rfl
  rw [emissions_eq]
  cases h : (w.creationEmissions d id parent).fault? with
  | some f => rw [Emissions.skips_append_of_fault h, hcreation]
  | none => rw [Emissions.skips_append h, hcreation, hsettings, List.nil_append]

/-- All the statements of a widget create the widget. -/
theorem created_emissions (h : (w.emissions d id parent).fault? = none) :
    (w.emissions d id parent).statements.filterMap Statement.created? = [id] :=
  (w.areAbout_emissions d id parent).complete h

end Widget

namespace Generator

/-- The variables are those that the statements create, in their order. -/
def Agrees (g : Generator) : Prop := g.identifiers = g.statements.filterMap Statement.created?

/-- Statements that are all those made of some widget, which a fault may have ended, or none. -/
def AreOfWidget (ss : List Statement) : Prop :=
  ss = [] ∨ ∃ (d : Detail) (id parent : Text) (w : Widget),
    ss = (w.emissions d id parent).statements

/-- They create the widget or nothing. -/
theorem AreOfWidget.created_le {ss : List Statement} (h : AreOfWidget ss) :
    (ss.filterMap Statement.created?).length ≤ 1 := by
  rcases h with rfl | ⟨d, id, parent, w, rfl⟩
  · exact Nat.zero_le 1
  · exact (w.areAbout_emissions d id parent).identifiers.length_le

/-- What is generated follows by emissions, of which the statements of one widget may be cut off at
the end. -/
structure Follows (es : Emissions) (cut : List Statement) (g g' : Generator) : Prop where
  statements : g.statements ++ es.statements = g'.statements ++ cut
  skips : g'.skips = g.skips ++ es.skips
  agrees : g.Agrees → g'.Agrees
  cut : AreOfWidget cut

/-- A step adds emissions, and ends in their fault. -/
structure Adds (es : Emissions) (step : Generating Unit) : Prop where
  ok : ∀ {g g' : Generator}, step.run g = .ok () g' → es.fault? = none ∧ Follows es [] g g'
  error : ∀ {f : Fault} {g g' : Generator}, step.run g = .error f g' →
    es.fault? = some f ∧ ∃ cut, Follows es cut g g'

variable {es es' : Emissions} {cut : List Statement} {g g' g'' : Generator}

/-! ## One step after the other -/

theorem Follows.append (hfault : es.fault? = none) (h : Follows es [] g g')
    (h' : Follows es' cut g' g'') : Follows (es ++ es') cut g g'' where
  statements := by
    rw [Emissions.statements_append hfault, ← List.append_assoc, h.statements, List.append_nil,
      h'.statements]
  skips := by rw [Emissions.skips_append hfault, ← List.append_assoc, ← h.skips, h'.skips]
  agrees hg := h'.agrees (h.agrees hg)
  cut := h'.cut

theorem Follows.append_of_fault {f : Fault} (hfault : es.fault? = some f)
    (h : Follows es cut g g') (es' : Emissions) : Follows (es ++ es') cut g g' where
  statements := by rw [Emissions.statements_append_of_fault hfault, h.statements]
  skips := by rw [Emissions.skips_append_of_fault hfault, h.skips]
  agrees := h.agrees
  cut := h.cut

section Run

variable {α : Type} {step : Generating α} {next : α → Generating Unit} {f : Fault}

theorem run_bind_eq_ok (h : (step >>= next).run g = .ok () g'') :
    ∃ a g', step.run g = .ok a g' ∧ (next a).run g' = .ok () g'' := by
  simp only [EStateM.run, bind, EStateM.bind] at h
  cases hstep : step g with
  | ok a g' =>
    rw [hstep] at h
    exact ⟨a, g', hstep, h⟩
  | error e g' =>
    rw [hstep] at h
    cases h

theorem run_bind_eq_error (h : (step >>= next).run g = .error f g'') :
    step.run g = .error f g'' ∨ ∃ a g', step.run g = .ok a g' ∧ (next a).run g' = .error f g'' := by
  simp only [EStateM.run, bind, EStateM.bind] at h
  cases hstep : step g with
  | ok a g' =>
    rw [hstep] at h
    exact .inr ⟨a, g', hstep, h⟩
  | error e g' =>
    rw [hstep] at h
    cases h
    exact .inl hstep

end Run

theorem Adds.append {step step' : Generating Unit} (h : Adds es step) (h' : Adds es' step') :
    Adds (es ++ es') (step >>= fun _ => step') where
  ok hrun := by
    obtain ⟨⟨⟩, g', hstep, hstep'⟩ := run_bind_eq_ok hrun
    obtain ⟨hfault, hfollows⟩ := h.ok hstep
    obtain ⟨hfault', hfollows'⟩ := h'.ok hstep'
    exact ⟨Emissions.fault?_append_eq_none.2 ⟨hfault, hfault'⟩, hfollows.append hfault hfollows'⟩
  error hrun := by
    rcases run_bind_eq_error hrun with hstep | ⟨⟨⟩, g', hstep, hstep'⟩
    · obtain ⟨hfault, cut, hfollows⟩ := h.error hstep
      exact ⟨Emissions.fault?_append_of_fault hfault es', cut,
        hfollows.append_of_fault hfault es'⟩
    · obtain ⟨hfault, hfollows⟩ := h.ok hstep
      obtain ⟨hfault', cut, hfollows'⟩ := h'.error hstep'
      exact ⟨(Emissions.fault?_append hfault es').trans hfault', cut,
        hfollows.append hfault hfollows'⟩

/-! ## Steps -/

theorem make_of_fault? (h : es.fault? = none) (g : Generator) :
    (make es).run g = .ok es.statements g := by
  rw [make, h]
  rfl

theorem make_of_fault {f : Fault} (h : es.fault? = some f) (g : Generator) :
    (make es).run g = .error f g := by
  rw [make, h]
  rfl

/-- The statements of a widget are added all together, and with them its variable. -/
theorem adds_widget (d : Detail) (id parent : Text) (w : Widget) :
    Adds (w.emissions d id parent)
      (make (w.emissions d id parent) >>= fun statements => modify (add id statements)) where
  ok {g g''} hrun := by
    obtain ⟨statements, g', hmake, hadd⟩ := run_bind_eq_ok hrun
    cases hadd
    cases hfault : (w.emissions d id parent).fault? with
    | some f =>
      rw [make_of_fault hfault] at hmake
      cases hmake
    | none =>
      rw [make_of_fault? hfault] at hmake
      cases hmake
      refine ⟨rfl, (List.append_nil _).symm, ?_, fun hg => ?_, .inl rfl⟩
      · rw [w.skips_emissions]
        exact (List.append_nil _).symm
      · show g.identifiers ++ [id] = (g.statements ++ _).filterMap Statement.created?
        rw [List.filterMap_append, w.created_emissions d id parent hfault, ← hg]
  error {f g g''} hrun := by
    rcases run_bind_eq_error hrun with hmake | ⟨statements, g', -, hadd⟩
    · cases hfault : (w.emissions d id parent).fault? with
      | some e =>
        rw [make_of_fault hfault] at hmake
        cases hmake
        refine ⟨rfl, _, rfl, ?_, fun hg => hg, .inr ⟨d, id, parent, w, rfl⟩⟩
        rw [w.skips_emissions, List.append_nil]
      | none =>
        rw [make_of_fault? hfault] at hmake
        cases hmake
    · cases hadd

theorem adds_skip (path : List Nat) (reason : SkipReason) :
    Adds [.ok (.skipped path reason)] (modify (skip path reason)) where
  ok hrun := by
    cases hrun
    exact ⟨rfl, rfl, rfl, fun hg => hg, .inl rfl⟩
  error hrun := by cases hrun

theorem adds_throw (f : Fault) : Adds [.error f] (throw f) where
  ok hrun := by cases hrun
  error {e g g'} hrun := by
    cases hrun
    exact ⟨rfl, [], rfl, (List.append_nil _).symm, fun hg => hg, .inl rfl⟩

end Generator

/-! ## Forests -/

open Generator

mutual

theorem Tree.adds_generate (d : Detail) : ∀ (parent : Text) (path : List Nat) (t : Tree Widget),
    Adds (Tree.emissions d parent path t) (Tree.generate d parent path t)
  | parent, path, .node w ts => by
    rw [Tree.emissions, Tree.generate]
    cases w.naming with
    | skip reason => exact adds_skip path reason
    | fault f => exact adds_throw f
    | legal id =>
      have hadds := (adds_widget d id parent w).append (Forest.adds_generate d id path 0 ts)
      rwa [bind_assoc] at hadds

/-- **Going along a forest** adds what is emitted for it. -/
theorem Forest.adds_generate (d : Detail) : ∀ (parent : Text) (path : List Nat) (index : Nat)
    (ts : List (Tree Widget)),
    Adds (Forest.emissions d parent path index ts) (Forest.generate d parent path index ts)
  | _, _, _, [] =>
    { ok := fun hrun => by
        cases hrun
        exact ⟨rfl, rfl, (List.append_nil _).symm, fun hg => hg, .inl rfl⟩
      error := fun hrun => by cases hrun }
  | parent, path, index, t :: ts => by
    rw [Forest.emissions, Forest.generate]
    exact (Tree.adds_generate d parent (path ++ [index]) t).append
      (Forest.adds_generate d parent path (index + 1) ts)

end

section Forest

variable {d : Detail} {parent : Text} {path : List Nat} {index : Nat} {ts : List (Tree Widget)}
  {es : Emissions} (hes : Forest.emissions d parent path index ts = es)
include hes

/-- **Without a fault** the three lists are those of what is emitted. -/
theorem Forest.run_generate (h : es.fault? = none) :
    (Forest.generate d parent path index ts).run {} =
      .ok () { statements := es.statements, identifiers := es.identifiers, skips := es.skips } := by
  have hadds := hes ▸ Forest.adds_generate d parent path index ts
  cases hrun : (Forest.generate d parent path index ts).run {} with
  | ok u g =>
    obtain ⟨-, hstatements, hskips, hagrees, -⟩ := hadds.ok hrun
    rw [List.append_nil] at hstatements
    have hidentifiers : g.identifiers = es.identifiers := by
      rw [hagrees rfl, ← hstatements]
      rfl
    obtain ⟨statements, identifiers, skips⟩ := g
    cases hstatements
    cases hskips
    cases hidentifiers
    rfl
  | error f g =>
    have hfault := (hadds.error hrun).1
    rw [h] at hfault
    cases hfault

/-- **A fault** leaves lists that agree. Of what is emitted they lack at most the beginning of one
widget, and with it one variable. -/
theorem Forest.run_generate_of_fault {f : Fault} (h : es.fault? = some f) :
    ∃ g cut, (Forest.generate d parent path index ts).run {} = .error f g ∧ g.Agrees ∧
      es.statements = g.statements ++ cut ∧
      es.identifiers = g.identifiers ++ cut.filterMap Statement.created? ∧
      AreOfWidget cut ∧ (cut.filterMap Statement.created?).length ≤ 1 ∧ es.skips = g.skips := by
  have hadds := hes ▸ Forest.adds_generate d parent path index ts
  cases hrun : (Forest.generate d parent path index ts).run {} with
  | ok u g =>
    have hfault := (hadds.ok hrun).1
    rw [h] at hfault
    cases hfault
  | error e g =>
    obtain ⟨hfault, cut, hstatements, hskips, hagrees, hcut⟩ := hadds.error hrun
    cases h.symm.trans hfault
    have hg : g.Agrees := hagrees rfl
    refine ⟨g, cut, rfl, hg, hstatements, ?_, hcut, hcut.created_le, hskips.symm⟩
    rw [Emissions.identifiers, show es.statements = g.statements ++ cut from hstatements,
      List.filterMap_append, hg]

end Forest

end LvglForest
