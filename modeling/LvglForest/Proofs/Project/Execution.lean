import LvglForest.Proofs.Project.Agreement
import Mathlib.Logic.Function.Basic

/-!
# Running a function body

The statements of a function that create a widget, run in order: each makes an object under what
its reference is bound to at that moment, and binds its variable to the new object. The bodies of
rendered screens never refer to a variable that is not bound, and they build the forest of the
screen exactly if no name is rebound while it is still needed (`Project.ofScreens_builds_iff`): a
variable is needed until the last child below it is created, and the parameter until the last root
is. Names that are distinct, also from the parameter, are enough
(`Forest.unshadowed_of_nodup`).

The run of a body is followed through the forest. What one tree does to the bindings is said once
(`Execution.Grows`): names outside it stay bound as they were, and names in it are bound to objects
that are new.
-/

namespace LvglForest

/-! ## Execution -/

/-- The variable that a name stands for in source. A line feed that ends the name is no part of
it. -/
def Text.asVariable (name : Text) : Text := name.dropFinalNewline

/-- A state in the run of a function body: the objects that variables are bound to, and for each
object that was made the object under which it was made. Object `0` is what the function is called
with, and the objects that are made are numbered from one on. -/
structure Execution where
  bound : Text → Option Nat
  parents : List Nat

namespace Execution

/-- The state in which a function is called: only its parameter is bound. -/
def start (parameter : Text) : Execution where
  bound x := if x = parameter.asVariable then some 0 else none
  parents := []

/-- Makes a new object under what a variable is bound to, and binds a variable to it. -/
def create (e : Execution) (above x : Text) : Option Execution :=
  (e.bound above).map fun o =>
    { bound := Function.update e.bound x (some (e.parents.length + 1))
      parents := e.parents ++ [o] }

/-- Runs one statement. Only creations matter here. -/
def step (e : Execution) (s : Statement) : Option Execution :=
  match s with
  | .create target _ parent => e.create parent.asVariable target.asVariable
  | _ => some e

/-- Runs statements in order. -/
def run (e : Execution) (ss : List Statement) : Option Execution := ss.foldlM step e

/-- Makes the links between variables in order. -/
def createAll (e : Execution) (links : List (Text × Text)) : Option Execution :=
  links.foldlM (fun e l => e.create l.1 l.2) e

theorem createAll_append (e : Execution) (ls ms : List (Text × Text)) :
    e.createAll (ls ++ ms) = (e.createAll ls).bind (createAll · ms) :=
  List.foldlM_append

/-- A run makes the links of its statements. -/
theorem run_eq_createAll (e : Execution) (ss : List Statement) : e.run ss =
    e.createAll ((ss.filterMap Statement.link?).map fun l => (l.1.asVariable, l.2.asVariable)) := by
  induction ss generalizing e with
  | nil => rfl
  | cons s ss ih =>
    rw [run, List.foldlM_cons, createAll]
    cases s with
    | create target sourceName parent =>
      rw [List.filterMap_cons, Statement.link?, List.map_cons, List.foldlM_cons]
      exact congrArg _ (funext ih)
    | comment identifier kind => exact ih e
    | call function arguments => exact ih e
    | gap => exact ih e

/-- Variables are bound to objects that exist. -/
def IsSound (e : Execution) : Prop := ∀ x o, e.bound x = some o → o ≤ e.parents.length

theorem isSound_start (parameter : Text) : (start parameter).IsSound := by
  intro x o h
  rw [start] at h
  simp only at h
  split at h <;> cases h
  exact Nat.zero_le _

/-- One state comes from another by making objects under given parents and binding given variables
to them. -/
structure Grows (e e' : Execution) (names : List Text) (made : List Nat) : Prop where
  parents : e'.parents = e.parents ++ made
  other : ∀ x, x ∉ names → e'.bound x = e.bound x
  new : ∀ x ∈ names, ∃ o, e'.bound x = some o ∧ e.parents.length < o ∧ o ≤ e'.parents.length

namespace Grows

variable {e e' e'' : Execution} {xs ys : List Text} {os qs : List Nat}

theorem refl (e : Execution) : e.Grows e [] [] where
  parents := (List.append_nil _).symm
  other _ _ := rfl
  new _ h := absurd h List.not_mem_nil

theorem length_le (h : e.Grows e' xs os) : e.parents.length ≤ e'.parents.length := by
  rw [h.parents, List.length_append]
  exact Nat.le_add_right _ _

theorem trans (h : e.Grows e' xs os) (h' : e'.Grows e'' ys qs) :
    e.Grows e'' (xs ++ ys) (os ++ qs) where
  parents := by rw [h'.parents, h.parents, List.append_assoc]
  other x hx := by
    rw [List.mem_append, not_or] at hx
    rw [h'.other x hx.2, h.other x hx.1]
  new x hx := by
    by_cases hy : x ∈ ys
    · obtain ⟨o, hbound, hlt, hle⟩ := h'.new x hy
      exact ⟨o, hbound, Nat.lt_of_le_of_lt h.length_le hlt, hle⟩
    · obtain ⟨o, hbound, hlt, hle⟩ := h.new x ((List.mem_append.1 hx).resolve_right hy)
      exact ⟨o, (h'.other x hy).trans hbound, hlt, hle.trans h'.length_le⟩

theorem isSound (h : e.Grows e' xs os) (he : e.IsSound) : e'.IsSound := by
  intro x o ho
  by_cases hx : x ∈ xs
  · obtain ⟨o', hbound, -, hle⟩ := h.new x hx
    rw [hbound] at ho
    cases ho
    exact hle
  · rw [h.other x hx] at ho
    exact (he x o ho).trans h.length_le

end Grows

/-- What a creation does. -/
theorem exists_create {e : Execution} {above : Text} {o : Nat} (h : e.bound above = some o)
    (x : Text) : ∃ e', e.create above x = some e' ∧ e.Grows e' [x] [o] ∧
      e'.bound x = some (e.parents.length + 1) := by
  have hx : Function.update e.bound x (some (e.parents.length + 1)) x =
      some (e.parents.length + 1) := Function.update_self _ _ _
  refine ⟨_, by rw [create, h, Option.map_some], ⟨rfl, fun y hy => ?_, fun y hy => ?_⟩, hx⟩
  · exact Function.update_of_ne (List.ne_of_not_mem_cons hy) _ _
  · rw [List.mem_singleton] at hy
    exact ⟨_, hy ▸ hx, Nat.lt_succ_self _, by simp⟩

end Execution

/-! ## The forest that is to be built -/

section Forests

variable {α : Type}

mutual

/-- The numbers of the parents in a tree below a number. The nodes are numbered in document order,
from the second number on. -/
def Tree.parentsFrom (above next : Nat) : Tree α → List Nat
  | .node _ ts => above :: Forest.parentsFrom next (next + 1) ts

/-- The numbers of the parents in trees below a number. -/
def Forest.parentsFrom (above next : Nat) : List (Tree α) → List Nat
  | [] => []
  | t :: ts =>
    Tree.parentsFrom above next t ++ Forest.parentsFrom above (next + t.toList.length) ts

end

/-- The parents in a forest, where the nodes are numbered in document order from one on and the
roots are below zero. -/
def Forest.parentNumbers (ts : Forest α) : List Nat := Forest.parentsFrom 0 1 ts

section Names

variable {β : Type} (f : α → β)

mutual

/-- No name is given away below a node while children of the node still have to follow. -/
def Tree.Unshadowed : Tree α → Prop
  | .node a ts => Forest.Unshadowed (f a) ts

/-- No tree but the last has the name of what stands above all of them, and none gives a name away
below. -/
def Forest.Unshadowed (above : β) : List (Tree α) → Prop
  | [] => True
  | t :: ts =>
    (ts ≠ [] → above ∉ t.toList.map f) ∧ Tree.Unshadowed t ∧ Forest.Unshadowed above ts

end

mutual

theorem Tree.unshadowed_of_nodup : ∀ (t : Tree α), (t.toList.map f).Nodup → t.Unshadowed f
  | .node a ts, h => by
    rw [Tree.toList, List.map_cons] at h
    exact Forest.unshadowed_of_nodup ts h

/-- Distinct names are not given away. -/
theorem Forest.unshadowed_of_nodup {above : β} : ∀ (ts : List (Tree α)),
    (above :: (Forest.toList ts).map f).Nodup → Forest.Unshadowed f above ts
  | [], _ => trivial
  | t :: ts, h => by
    rw [Forest.toList, List.map_append, List.nodup_cons, List.mem_append, not_or] at h
    obtain ⟨⟨ht, hts⟩, hnodup⟩ := h
    exact ⟨fun _ => ht, Tree.unshadowed_of_nodup t hnodup.of_append_left,
      Forest.unshadowed_of_nodup ts (List.nodup_cons.2 ⟨hts, hnodup.of_append_right⟩)⟩

end

end Names

mutual

theorem Tree.length_parentsFrom : ∀ (above next : Nat) (t : Tree α),
    (t.parentsFrom above next).length = t.toList.length
  | above, next, .node a ts => by
    rw [Tree.parentsFrom, Tree.toList, List.length_cons, List.length_cons,
      Forest.length_parentsFrom next (next + 1) ts]

theorem Forest.length_parentsFrom : ∀ (above next : Nat) (ts : List (Tree α)),
    (Forest.parentsFrom above next ts).length = (Forest.toList ts).length
  | _, _, [] => rfl
  | above, next, t :: ts => by
    rw [Forest.parentsFrom, Forest.toList, List.length_append, List.length_append,
      Tree.length_parentsFrom above next t, Forest.length_parentsFrom above _ ts]

end

theorem Forest.head?_parentsFrom (above next : Nat) {ts : List (Tree α)} (h : ts ≠ []) :
    (Forest.parentsFrom above next ts).head? = some above := by
  obtain ⟨t, ts, rfl⟩ := List.exists_cons_of_ne_nil h
  cases t
  rfl

/-! ## Creating a forest -/

open Execution

variable (f : α → Text)

mutual

theorem Tree.exists_createAll : ∀ {e : Execution} {above : Text} {o : Nat} (t : Tree α)
    (_ : e.IsSound) (_ : e.bound above = some o),
    ∃ e' qs, e.createAll ((t.links f above).map fun l => (l.1, f l.2)) = some e' ∧
      e.Grows e' (t.toList.map f) (o :: qs) ∧ qs.length + 1 = t.toList.length ∧
      (o :: qs = t.parentsFrom o (e.parents.length + 1) ↔ t.Unshadowed f)
  | e, above, o, .node a ts, he, habove => by
    obtain ⟨e₁, hcreate, hgrows₁, hbound⟩ := exists_create habove (f a)
    have hlength : e₁.parents.length = e.parents.length + 1 := by
      rw [hgrows₁.parents, List.length_append, List.length_singleton]
    obtain ⟨e₂, qs, hall, hgrows₂, hqs, -, hiff⟩ :=
      Forest.exists_createAll ts (hgrows₁.isSound he) hbound
    refine ⟨e₂, qs, ?_, hgrows₁.trans hgrows₂, ?_, ?_⟩
    · rw [Tree.links, List.map_cons, createAll, List.foldlM_cons, hcreate]
      exact hall
    · rw [Tree.toList, List.length_cons, hqs]
    · rw [Tree.parentsFrom, List.cons.injEq, and_iff_right rfl, Tree.Unshadowed, ← hiff, hlength]

/-- **The objects of a forest** are made under the right parents exactly if no name is given away
below while it is still needed. The first of them is made under what the name above is bound to. -/
theorem Forest.exists_createAll : ∀ {e : Execution} {above : Text} {o : Nat} (ts : List (Tree α))
    (_ : e.IsSound) (_ : e.bound above = some o),
    ∃ e' qs, e.createAll ((Forest.links f above ts).map fun l => (l.1, f l.2)) = some e' ∧
      e.Grows e' ((Forest.toList ts).map f) qs ∧ qs.length = (Forest.toList ts).length ∧
      (ts ≠ [] → qs.head? = some o) ∧
      (qs = Forest.parentsFrom o (e.parents.length + 1) ts ↔ Forest.Unshadowed f above ts)
  | e, above, o, [], _, _ =>
    ⟨e, [], rfl, .refl e, rfl, fun h => absurd rfl h, ⟨fun _ => trivial, fun _ => rfl⟩⟩
  | e, above, o, t :: ts, he, habove => by
    obtain ⟨e₁, qs, hall₁, hgrows₁, hqs, hiff₁⟩ := Tree.exists_createAll t he habove
    -- The name above is still bound, but to a new object if the tree has it too.
    obtain ⟨o', habove', ho'⟩ : ∃ o', e₁.bound above = some o' ∧
        (o' = o ↔ above ∉ t.toList.map f) := by
      by_cases hmem : above ∈ t.toList.map f
      · obtain ⟨o', hbound, hlt, -⟩ := hgrows₁.new above hmem
        have hle := he above o habove
        exact ⟨o', hbound, ⟨fun h => absurd h (by omega), fun h => absurd hmem h⟩⟩
      · exact ⟨o, (hgrows₁.other above hmem).trans habove, iff_of_true rfl hmem⟩
    obtain ⟨e₂, rs, hall₂, hgrows₂, hrs, hhead, hiff₂⟩ :=
      Forest.exists_createAll ts (hgrows₁.isSound he) habove'
    have hlength : e₁.parents.length + 1 = e.parents.length + 1 + t.toList.length := by
      rw [hgrows₁.parents, List.length_append, List.length_cons, hqs, Nat.add_right_comm]
    -- A new object shows in the parent of the next root, if there is one.
    have hrest : rs = Forest.parentsFrom o (e.parents.length + 1 + t.toList.length) ts ↔
        (ts ≠ [] → above ∉ t.toList.map f) ∧ Forest.Unshadowed f above ts := by
      rw [← hlength, ← hiff₂]
      rcases eq_or_ne ts [] with rfl | hne
      · exact ⟨fun h => ⟨fun h' => absurd rfl h', h⟩, fun h => h.2⟩
      · constructor
        · intro h
          have hfirst := hhead hne
          rw [h, Forest.head?_parentsFrom o _ hne] at hfirst
          have hsame : o' = o := (Option.some.inj hfirst).symm
          exact ⟨fun _ => ho'.1 hsame, hsame ▸ h⟩
        · rintro ⟨hmem, h⟩
          rw [ho'.2 (hmem hne)] at h
          exact h
    refine ⟨e₂, o :: qs ++ rs, ?_, ?_, ?_, fun _ => rfl, ?_⟩
    · rw [Forest.links, List.map_append, createAll_append, hall₁]
      exact hall₂
    · rw [Forest.toList, List.map_append]
      exact hgrows₁.trans hgrows₂
    · rw [Forest.toList, List.length_append, List.length_append, List.length_cons, hqs, hrs]
    · have hsplit : o :: qs ++ rs = Forest.parentsFrom o (e.parents.length + 1) (t :: ts) ↔
          o :: qs = t.parentsFrom o (e.parents.length + 1) ∧
            rs = Forest.parentsFrom o (e.parents.length + 1 + t.toList.length) ts := by
        refine ⟨fun h => List.append_inj h ?_, fun h => congrArg₂ (· ++ ·) h.1 h.2⟩
        rw [List.length_cons, hqs, Tree.length_parentsFrom]
      rw [hsplit, hiff₁, hrest, Forest.Unshadowed]
      exact and_left_comm

end

end Forests

/-! ## The bodies of a project -/

/-- The variable of a widget. -/
def Widget.asVariable (w : Widget) : Text := w.name.asVariable

/-- The body of a function builds a forest: it runs to its end, and makes the object of every
widget under the object of its parent, and of every root under the parameter. -/
def Definition.Builds (o : ExportOptions) (f : Definition) (ts : Forest Widget) : Prop :=
  ∃ e, (Execution.start o.parentName).run f.body = some e ∧ e.parents = Forest.parentNumbers ts

/-- What is generated for a forest with legal names runs, and it builds the forest exactly if no
name is given away while it is still needed. -/
theorem Forest.run_emissions (d : Detail) (parent : Text) {ts : Forest Widget}
    (h : ∀ w ∈ Forest.toList ts, w.identifier = .text w.name ∧ w.hasLegalName = true)
    (hfault : (Forest.emissions d parent [] 0 ts).fault? = none) :
    ∃ e, (Execution.start parent).run (Forest.emissions d parent [] 0 ts).statements = some e ∧
      (e.parents = Forest.parentNumbers ts ↔
        Forest.Unshadowed Widget.asVariable parent.asVariable ts) := by
  have hbound : (Execution.start parent).bound parent.asVariable = some 0 := if_pos rfl
  obtain ⟨e, qs, hall, hgrows, -, -, hiff⟩ := Forest.exists_createAll Widget.asVariable ts
    (Execution.isSound_start parent) hbound
  have hlinks : (Forest.emissions d parent [] 0 ts).links.map
      (fun l => (l.1.asVariable, l.2.asVariable)) =
        (Forest.links Widget.asVariable parent.asVariable ts).map
          fun l => (l.1, l.2.asVariable) := by
    have hcomp := Forest.links_comp Widget.name Text.asVariable parent ts
    rw [Forest.links_emissions d parent [] 0 ts h hfault, List.map_map,
      show Widget.asVariable = Text.asVariable ∘ Widget.name from rfl, hcomp, List.map_map]
    rfl
  have hparents : e.parents = qs := hgrows.parents
  refine ⟨e, ?_, ?_⟩
  · rw [Execution.run_eq_createAll, ← Emissions.links, hlinks]
    exact hall
  · rw [hparents]
    exact hiff

/-- The same for the body of a draft. -/
theorem Rendering.Draft.builds_iff {o : ExportOptions} {s : Screen} {d : Draft} (hof : d.IsOf o s)
    (hfault : d.emissions.fault? = none)
    (h : ∀ w ∈ Forest.toList s.widgets, w.identifier = .text w.name ∧ w.hasLegalName = true) :
    (∃ e, (Execution.start o.parentName).run d.definition.body = some e) ∧
      (d.definition.Builds o s.widgets ↔
        Forest.Unshadowed Widget.asVariable o.parentName.asVariable s.widgets) := by
  have hbody : d.definition.body =
      (Forest.emissions o.detail o.parentName [] 0 s.widgets).statements :=
    congrArg Emissions.statements hof.emissions
  rw [hof.emissions] at hfault
  obtain ⟨e, hrun, hiff⟩ := Forest.run_emissions o.detail o.parentName h hfault
  rw [← hbody] at hrun
  refine ⟨⟨e, hrun⟩, ?_⟩
  rw [Definition.Builds, ← hiff]
  constructor
  · rintro ⟨e', hrun', hparents⟩
    rw [hrun] at hrun'
    cases hrun'
    exact hparents
  · exact fun hparents => ⟨e, hrun, hparents⟩

/-- **What a function body builds.** The body of a screen in which all widgets have legal names runs
to its end. It builds the forest of the screen exactly if no name is given away below a node, or
the parameter in a tree, while something else still has to be created there; distinct names are
enough. -/
theorem Project.ofScreens_builds_iff {o : ExportOptions} {screens : List Screen} {p : Project}
    (hp : ofScreens o screens = .ok p) :
    ∃ (library : Text) (h : Declaration) (fs : List Definition),
      p.files = h.file o library :: fs.map (Definition.file o) ∧
      List.Forall₂ (fun s f =>
        f.body = (Forest.emissions o.detail o.parentName [] 0 s.widgets).statements ∧
        ((∀ w ∈ Forest.toList s.widgets, w.identifier = .text w.name ∧ w.hasLegalName = true) →
          (∃ e, (Execution.start o.parentName).run f.body = some e) ∧
          (f.Builds o s.widgets ↔
            Forest.Unshadowed Widget.asVariable o.parentName.asVariable s.widgets) ∧
          ((o.parentName.asVariable :: (Forest.toList s.widgets).map Widget.asVariable).Nodup →
            f.Builds o s.widgets))) screens fs := by
  obtain ⟨library, ds, -, -, hdrafts, hfault, rfl⟩ := ofScreens_eq_ok.1 hp
  refine ⟨library, _, _, files_ofDrafts o library ds, ?_⟩
  rw [List.forall₂_map_right_iff]
  have hof := Rendering.forall₂_isOf (Rendering.drafts_eq_ok o hdrafts).1 hfault
  refine hof.imp fun s d ⟨hd, hdfault⟩ => ⟨congrArg Emissions.statements hd.emissions, fun hs => ?_⟩
  obtain ⟨hrun, hiff⟩ := d.builds_iff hd hdfault hs
  exact ⟨hrun, hiff, fun hnodup => hiff.2 (Forest.unshadowed_of_nodup _ _ hnodup)⟩

/-- A name may be given away below a node if nothing else is created there. -/
theorem Project.ofScreens_builds_repeated :
    let s : Screen := ⟨.text "main",
      [.node (.named "panel") [.node (.named "ok") [], .node (.named "panel") []]]⟩
    ∃ p, ofScreens {} [s] = .ok p ∧ ∃ (library : Text) (h : Declaration) (f : Definition),
      p.files = [h.file {} library, f.file {}] ∧ f.Builds {} s.widgets := by
  intro s
  obtain ⟨-, p, hp⟩ := exists_ofScreens_of_named [s] (by
    simp [s, Forest.toList, Tree.toList])
  obtain ⟨library, h, fs, hfiles, hall⟩ := ofScreens_builds_iff hp
  obtain ⟨f, rfl⟩ : ∃ f, fs = [f] := List.length_eq_one_iff.1 hall.length_eq.symm
  rw [List.forall₂_cons] at hall
  have hlegal : ∀ w ∈ Forest.toList s.widgets,
      w.identifier = .text w.name ∧ w.hasLegalName = true := by
    simp only [s, Forest.toList, Tree.toList, List.append_nil, List.cons_append, List.nil_append,
      List.forall_mem_cons]
    exact ⟨⟨rfl, rfl⟩, ⟨rfl, rfl⟩, ⟨rfl, rfl⟩, fun _ h => absurd h List.not_mem_nil⟩
  refine ⟨p, hp, library, h, f, hfiles, (hall.1.2 hlegal).2.1.2 ?_⟩
  simp only [s, Forest.Unshadowed, Tree.Unshadowed, Forest.toList, Tree.toList]
  decide

/-- A root of the parameter's name is taken for the parent of the roots after it. -/
theorem Project.ofScreens_not_builds :
    let s : Screen := ⟨.text "s", [.node (.named "parent") [], .node (.named "b") []]⟩
    (∀ w ∈ Forest.toList s.widgets, w.identifier = .text w.name ∧ w.hasLegalName = true) ∧
      ∃ p, ofScreens {} [s] = .ok p ∧ ∃ (library : Text) (h : Declaration) (f : Definition),
        p.files = [h.file {} library, f.file {}] ∧
        f.body = (Forest.emissions .verbose "parent" [] 0 s.widgets).statements ∧
        ¬ f.Builds {} s.widgets := by
  intro s
  have hlegal : ∀ w ∈ Forest.toList s.widgets,
      w.identifier = .text w.name ∧ w.hasLegalName = true := by
    simp only [s, Forest.toList, Tree.toList, List.append_nil, List.cons_append, List.nil_append,
      List.forall_mem_cons]
    exact ⟨⟨rfl, rfl⟩, ⟨rfl, rfl⟩, fun _ h => absurd h List.not_mem_nil⟩
  obtain ⟨-, p, hp⟩ := exists_ofScreens_of_named [s] (by
    simp [s, Forest.toList, Tree.toList])
  refine ⟨hlegal, p, hp, ?_⟩
  obtain ⟨library, ds, -, -, hdrafts, hfault, rfl⟩ := ofScreens_eq_ok.1 hp
  have hof := Rendering.forall₂_isOf (Rendering.drafts_eq_ok {} hdrafts).1 hfault
  obtain ⟨d, rfl⟩ : ∃ d, ds = [d] := List.length_eq_one_iff.1 hof.length_eq.symm
  obtain ⟨⟨hd, hdfault⟩, -⟩ := List.forall₂_cons.1 hof
  refine ⟨library, _, _, files_ofDrafts {} library [d], congrArg Emissions.statements hd.emissions,
    fun hbuilds => ?_⟩
  have hunshadowed := (d.builds_iff hd hdfault hlegal).2.1 hbuilds
  simp only [s, Forest.Unshadowed, Tree.Unshadowed, Forest.toList, Tree.toList] at hunshadowed
  revert hunshadowed
  decide

end LvglForest
