import LvglForest.Proofs.Code.Isolation
import LvglForest.Proofs.Code.Spelling
import LvglForest.Proofs.Project.Rendering

/-!
# Names in generated code

What is generated for a forest names its widgets: the variables are the names of the widgets that
are left after pruning, in order and up to a fault, and every statement is about one of them
(`Forest.areAbout_emissions`). A legal name is an identifier that one line feed may follow. A name
without that line feed splits nothing that it stands in; a name with it splits its declaration, its
definition and all of its statements (`Generation.ofSubject_names`).
-/

namespace LvglForest

/-! ## What statements are about -/

namespace Statement

/-- The variable that a statement is about. A call is about its first argument. -/
def subject? : Statement → Option Text
  | .comment identifier _ => some identifier
  | .create target _ _ => some target
  | .call _ arguments => arguments.head?
  | .gap => none

/-- A statement is in one line if what it is put together from is. -/
theorem inLine_text_iff (s : Statement) : s.text.InLine ↔ ∀ t ∈ s.parts, t.InLine := by
  refine s.madeOf_text_iff fun p hlow hhigh => ?_
  rw [← Bool.not_eq_true]
  intro hbreak
  simp only [CodePoint.isLineBreak, Bool.or_eq_true, Bool.and_eq_true, decide_eq_true_eq,
    beq_iff_eq] at hbreak
  omega

theorem mem_parts_of_subject? {s : Statement} {id : Text} (h : s.subject? = some id) :
    id ∈ s.parts := by
  cases s with
  | comment identifier kind => cases h; exact List.mem_cons_self
  | create target sourceName parent => cases h; exact List.mem_cons_self
  | call function arguments => exact List.mem_cons_of_mem _ (List.mem_of_mem_head? h)
  | gap => cases h

/-- The variable that a statement is about splits it, or something else in it does. -/
theorem inLine_text_iff_of_subject? {s : Statement} {id : Text} (h : s.subject? = some id) :
    s.text.InLine ↔ id.InLine ∧ ∀ t ∈ s.parts.erase id, t.InLine := by
  have hperm := List.perm_cons_erase (mem_parts_of_subject? h)
  rw [inLine_text_iff, ← List.forall_mem_cons]
  exact ⟨fun hall t ht => hall t (hperm.mem_iff.2 ht), fun hall t ht => hall t (hperm.mem_iff.1 ht)⟩

end Statement

/-! ## What emissions are about -/

/-- The calls that set something of a variable are about it. -/
theorem Emission.IsSettingOf.subject {id : Text} {s : Statement}
    (h : IsSettingOf id (.statement s)) : s = .gap ∨ s.subject? = some id := by
  cases s with
  | call function arguments => exact .inr h
  | gap => exact .inl rfl
  | comment identifier kind => exact h.elim
  | create target sourceName parent => exact h.elim

/-- Emissions are about names: the variables are these names in order, unless a fault ends them
before, and every statement is about a variable that has been created. -/
structure Emissions.AreAbout (names : List Text) (es : Emissions) : Prop where
  identifiers : es.identifiers <+: names
  complete : es.fault? = none → es.identifiers = names
  subject : ∀ s ∈ es.statements, s = .gap ∨ ∃ id ∈ es.identifiers, s.subject? = some id

namespace Emissions

theorem identifiers_append {es : Emissions} (h : es.fault? = none) (es' : Emissions) :
    identifiers (es ++ es') = es.identifiers ++ es'.identifiers := by
  rw [identifiers, statements_append h, List.filterMap_append]
  rfl

/-- Nothing is emitted behind a fault. -/
theorem completed_append_of_fault {es : Emissions} {f : Fault} (h : es.fault? = some f)
    (es' : Emissions) : completed (es ++ es') = es.completed := by
  induction es with
  | nil => cases h
  | cons e es ih =>
    cases e with
    | error g => rfl
    | ok x => exact congrArg (x :: ·) (ih h)

theorem statements_append_of_fault {es : Emissions} {f : Fault} (h : es.fault? = some f)
    (es' : Emissions) : statements (es ++ es') = es.statements := by
  rw [statements, completed_append_of_fault h]
  rfl

variable {names names' : List Text} {es es' : Emissions}

theorem AreAbout.of_fault {f : Fault} (h : es.fault? = some f) (hes : es.AreAbout names)
    (names' : List Text) (es' : Emissions) : (es ++ es').AreAbout (names ++ names') := by
  have hstatements := statements_append_of_fault h es'
  have hidentifiers : Emissions.identifiers (es ++ es') = es.identifiers :=
    congrArg (List.filterMap Statement.created?) hstatements
  refine ⟨?_, fun hfault => ?_, ?_⟩
  · rw [hidentifiers]
    exact hes.identifiers.trans (List.prefix_append names names')
  · rw [fault?_append_eq_none, h] at hfault
    cases hfault.1
  · rw [hstatements, hidentifiers]
    exact hes.subject

theorem AreAbout.append (hes : es.AreAbout names) (hes' : es'.AreAbout names') :
    (es ++ es').AreAbout (names ++ names') := by
  cases h : es.fault? with
  | some f => exact hes.of_fault h names' es'
  | none =>
    have hidentifiers := identifiers_append h es'
    refine ⟨?_, fun hfault => ?_, ?_⟩
    · rw [hidentifiers, hes.complete h]
      exact (List.prefix_append_right_inj names).2 hes'.identifiers
    · rw [hidentifiers, hes.complete h, hes'.complete (fault?_append_eq_none.1 hfault).2]
    · rw [statements_append h, hidentifiers, List.forall_mem_append]
      refine ⟨fun s hs => (hes.subject s hs).imp_right ?_,
        fun s hs => (hes'.subject s hs).imp_right ?_⟩
      · exact fun ⟨id, hid, hs⟩ => ⟨id, List.mem_append_left _ hid, hs⟩
      · exact fun ⟨id, hid, hs⟩ => ⟨id, List.mem_append_right _ hid, hs⟩

end Emissions

theorem Widget.areAbout_creationEmissions (d : Detail) (id parent : Text) (w : Widget) :
    (w.creationEmissions d id parent).AreAbout [id] := by
  have hfault (f : Fault) (es : Emissions) : Emissions.AreAbout [id] (.error f :: es) :=
    ⟨List.nil_prefix, fun h => (nomatch h), fun s hs => absurd hs List.not_mem_nil⟩
  have hcreate (t : Text) : Emissions.AreAbout [id] [.ok (.statement (.create id t parent))] :=
    ⟨List.prefix_rfl, fun _ => rfl, fun s hs =>
      .inr ⟨id, List.mem_singleton_self id, by rw [List.mem_singleton.1 hs]; rfl⟩⟩
  unfold creationEmissions
  split
  · exact hfault _ _
  · cases d with
    | concise => exact hcreate _
    | verbose =>
      cases w.kind.display with
      | error f => exact hfault f _
      | ok kind =>
        refine ⟨List.prefix_rfl, fun _ => rfl,
          fun s hs => .inr ⟨id, List.mem_singleton_self id, ?_⟩⟩
        rcases List.mem_cons.1 hs with rfl | hs
        · rfl
        · rw [List.mem_singleton.1 hs]
          rfl

/-- What is emitted for a widget is about the widget. -/
theorem Widget.areAbout_emissions (d : Detail) (id parent : Text) (w : Widget) :
    (w.emissions d id parent).AreAbout [id] := by
  have hcreation := w.areAbout_creationEmissions d id parent
  have hsettings := isSettingOf_settings id w
  have hquiet := (Emissions.links_skips_of_quiet fun x hx =>
    (isSetting_settings id w x hx).isQuiet).1
  rw [emissions_eq]
  generalize w.sizeEmissions id ++ _ ++ _ ++ _ ++ _ = settings at hsettings hquiet
  cases h : (w.creationEmissions d id parent).fault? with
  | some f => exact hcreation.of_fault h [] settings
  | none =>
    -- The settings create nothing, so they are about what has been created before them.
    have hidentifiers :
        Emissions.identifiers (w.creationEmissions d id parent ++ settings) = [id] := by
      rw [Emissions.identifiers_append h, hcreation.complete h, Emissions.identifiers_eq_links,
        hquiet]
      rfl
    refine ⟨by rw [hidentifiers], fun _ => hidentifiers, ?_⟩
    rw [Emissions.statements_append h, hidentifiers, List.forall_mem_append, ← hcreation.complete h]
    refine ⟨hcreation.subject, fun s hs => ?_⟩
    refine (hsettings _ (Emissions.mem_of_mem_statements hs)).subject.imp_right fun hs =>
      ⟨id, ?_, hs⟩
    rw [hcreation.complete h]
    exact List.mem_singleton_self id

mutual

theorem Tree.areAbout_emissions (d : Detail) : ∀ (parent : Text) (path : List Nat)
    (t : Tree Widget) (_ : ∀ w ∈ t.toList, w.identifier = .text w.name),
    (Tree.emissions d parent path t).AreAbout
      ((Forest.toList (Tree.prune Widget.hasLegalName t)).map Widget.name)
  | parent, path, .node w ts, h => by
    rw [Tree.toList, List.forall_mem_cons] at h
    rw [Tree.prune]
    cases hw : w.hasLegalName with
    | true =>
      rw [if_pos rfl, Tree.emissions_of_legal d h.1 hw, Forest.toList, Forest.toList, Tree.toList,
        List.append_nil, List.map_cons, ← List.singleton_append]
      exact (w.areAbout_emissions d w.name parent).append
        (Forest.areAbout_emissions d w.name path 0 ts h.2)
    | false =>
      rw [if_neg Bool.false_ne_true, Tree.emissions_of_illegal d h.1 hw]
      exact ⟨List.nil_prefix, fun _ => rfl, fun s hs => absurd hs List.not_mem_nil⟩

/-- **What is emitted for a forest** is about the widgets that are left after pruning. -/
theorem Forest.areAbout_emissions (d : Detail) : ∀ (parent : Text) (path : List Nat)
    (index : Nat) (ts : List (Tree Widget))
    (_ : ∀ w ∈ Forest.toList ts, w.identifier = .text w.name),
    (Forest.emissions d parent path index ts).AreAbout
      ((Forest.toList (Forest.prune Widget.hasLegalName ts)).map Widget.name)
  | _, _, _, [], _ => ⟨List.nil_prefix, fun _ => rfl, fun _ hs => absurd hs List.not_mem_nil⟩
  | parent, path, index, t :: ts, h => by
    rw [Forest.toList, List.forall_mem_append] at h
    rw [Forest.emissions, Forest.prune, Forest.toList_append, List.map_append]
    exact (Tree.areAbout_emissions d parent (path ++ [index]) t h.1).append
      (Forest.areAbout_emissions d parent path (index + 1) ts h.2)

end

/-! ## Names in code -/

namespace Rendering

/-- A name splits its definition, or nothing does. -/
theorem Draft.inLine_definitions_iff (d : Draft) :
    (∀ line ∈ d.definitions, line.InLine) ↔ ∀ id ∈ d.emissions.identifiers, id.InLine := by
  rw [definitions, identifiers, List.forall_mem_map]
  refine forall_congr' fun id => ?_
  rw [Text.mem_distinct]
  refine imp_congr_right fun _ => ⟨fun h p hp => h p ?_, fun h => ?_⟩
  · exact List.mem_append_left _ (List.mem_append_right _ hp)
  · exact Text.InLine.append (.append (by decide) h) (by decide)

/-- A name splits its declaration in the header, or nothing does. -/
theorem inLine_declarations_iff (ds : List Draft) : (∀ line ∈ declarations ds, line.InLine) ↔
    ∀ d ∈ ds, ∀ id ∈ d.emissions.identifiers, id.InLine := by
  have hsplit (id : Text) : Text.InLine ("extern lv_obj_t * " ++ id ++ ";") ↔ id.InLine := by
    refine ⟨fun h p hp => h p ?_, fun h => ?_⟩
    · exact List.mem_append_left _ (List.mem_append_right _ hp)
    · exact Text.InLine.append (.append (by decide) h) (by decide)
  simp only [declarations, List.forall_mem_map, hsplit, Text.mem_distinct, List.mem_flatMap,
    Draft.identifiers, forall_exists_index, and_imp]
  exact ⟨fun h d hd id hid => h id d hd hid, fun h id d hd hid => h d hd id hid⟩

end Rendering

/-- **Names in generated code.** The variables of a subject whose widgets are named by texts are the
names of the widgets that are left after pruning, in order, and all of them unless a fault ends the
generation. Each is an identifier that one line feed may follow, and it is an identifier exactly if
it is in one line, or if there is no blank in it. Every statement is about a variable that has been
created, and is in one line exactly if this is an identifier and nothing else in the statement
splits it. The definitions, and so the declarations, are in one line exactly if all variables are
identifiers; names that end in no line feed are enough. -/
theorem Generation.ofSubject_names (d : Detail) (parent : Text) {s : Subject} {root : Text}
    {ts : Forest Widget} (hs : s.Holds root ts)
    (ht : ∀ w ∈ Forest.toList ts, w.identifier = .text w.name) :
    let left := Forest.toList (Forest.prune Widget.hasLegalName ts)
    ∃ g, ofSubject d parent s = .ok g ∧
      g.emissions.identifiers <+: left.map Widget.name ∧
      (g.emissions.fault? = none → g.emissions.identifiers = left.map Widget.name) ∧
      (∀ id ∈ g.emissions.identifiers,
        (∃ i : Text, i.isIdentifier = true ∧ (id = i ∨ id = i ++ [.char '\n'])) ∧
        (id.isIdentifier = true ↔ id.InLine) ∧
        (id.isIdentifier = true ↔ ∀ p ∈ id, p.isBlank = false)) ∧
      (∀ s ∈ g.emissions.statements, s = .gap ∨ ∃ id ∈ g.emissions.identifiers,
        s.subject? = some id ∧
        (s.text.InLine ↔ id.isIdentifier = true ∧ ∀ t ∈ s.parts.erase id, t.InLine)) ∧
      (∀ wanted symbol, ∀ lines ∈ [Rendering.Draft.definitions ⟨wanted, symbol, g.emissions⟩,
          Rendering.declarations [⟨wanted, symbol, g.emissions⟩]],
        (∀ line ∈ lines, line.InLine) ↔ ∀ id ∈ g.emissions.identifiers, id.isIdentifier = true) ∧
      ((∀ w ∈ left, w.name.getLast? ≠ some (.char '\n')) →
        ∀ id ∈ g.emissions.identifiers, id.isIdentifier = true) := by
  intro left
  obtain ⟨g, hg, hes, -⟩ := ofSubject_of_holds d parent hs
  have habout := Forest.areAbout_emissions d parent [] 0 ts ht
  rw [← hes] at habout
  have hleft : ∀ id ∈ g.emissions.identifiers, ∃ w ∈ left, w.name = id ∧
      id.isIdentifierLine = true := by
    intro id hid
    obtain ⟨w, hw, rfl⟩ := List.mem_map.1 (habout.identifiers.subset hid)
    exact ⟨w, hw, rfl, (Forest.keep_of_mem_prune Widget.hasLegalName ts hw).1⟩
  have hinLine : ∀ id ∈ g.emissions.identifiers, id.isIdentifier = true ↔ id.InLine := by
    intro id hid
    obtain ⟨-, -, -, hlegal⟩ := hleft id hid
    exact Text.isIdentifier_iff_inLine hlegal
  refine ⟨g, hg, habout.identifiers, habout.complete, fun id hid => ?_, fun s hs => ?_, ?_,
    fun hnewline id hid => ?_⟩
  · obtain ⟨-, -, -, hlegal⟩ := hleft id hid
    exact ⟨Text.isIdentifierLine_iff.1 hlegal, hinLine id hid,
      Text.isIdentifier_iff_isBlank hlegal⟩
  · refine (habout.subject s hs).imp_right fun ⟨id, hid, hsubject⟩ => ⟨id, hid, hsubject, ?_⟩
    rw [hinLine id hid]
    exact Statement.inLine_text_iff_of_subject? hsubject
  · intro wanted symbol
    have hall : (∀ id ∈ g.emissions.identifiers, id.isIdentifier = true) ↔
        ∀ id ∈ g.emissions.identifiers, id.InLine := forall₂_congr hinLine
    rw [List.forall_mem_cons, List.forall_mem_singleton, hall]
    exact ⟨Rendering.Draft.inLine_definitions_iff _,
      (Rendering.inLine_declarations_iff _).trans List.forall_mem_singleton⟩
  · obtain ⟨w, hw, rfl, hlegal⟩ := hleft id hid
    exact (Text.isIdentifier_iff_getLast? hlegal).2 (hnewline w hw)

/-- Of the names below the page, one is an identifier, one is skipped and one ends in a line feed.
The last one splits declarations. -/
theorem Generation.ofSubject_names_nested :
    let ts : Forest Widget := [.node (.named "page") [.node (.named "ok") [],
      .node (.named "two words") [.node (.named "lost") []], .node (.named "last\n") []]]
    (∀ w ∈ Forest.toList ts, w.identifier = .text w.name) ∧
      ∃ g, ofSubject .verbose "parent" (.list (ts.map .widget)) = .ok g ∧
        g.emissions.fault? = none ∧ g.emissions.identifiers = ["page", "ok", "last\n"] ∧
        ¬ ∀ line ∈ Rendering.declarations [⟨"main", "main", g.emissions⟩], line.InLine := by
  intro ts
  have hnames : ∀ w ∈ Forest.toList ts, w.identifier = .text w.name := by
    simp only [ts, Forest.toList, Tree.toList, List.append_nil, List.cons_append, List.nil_append,
      List.forall_mem_cons]
    exact ⟨rfl, rfl, rfl, rfl, rfl, fun _ h => absurd h List.not_mem_nil⟩
  obtain ⟨g, hg, -, hcomplete, -, -, hlines, -⟩ :=
    ofSubject_names .verbose "parent" (.list ts) hnames
  have hfault : g.emissions.fault? = none := by
    cases hg
    rfl
  have hidentifiers : g.emissions.identifiers = ["page", "ok", "last\n"] :=
    (hcomplete hfault).trans (by rfl)
  refine ⟨hnames, g, hg, hfault, hidentifiers, ?_⟩
  rw [hlines "main" "main" _ (List.mem_cons_of_mem _ (List.mem_singleton_self _)), hidentifiers]
  decide

/-- A name that ends in a line feed reaches the code and splits what it stands in. -/
theorem Generation.ofSubject_names_newline :
    let ts : Forest Widget := [.node (.named "a\n") []]
    (∀ w ∈ Forest.toList ts, w.identifier = .text w.name) ∧
      ∃ g, ofSubject .concise "parent" (.list (ts.map .widget)) = .ok g ∧
        g.emissions.identifiers = ["a\n"] ∧ Text.isIdentifier "a\n" = false ∧
        (Rendering.declarations [⟨"main", "main", g.emissions⟩]).map Text.lines =
          ([["extern lv_obj_t * a", ";"]] : List (List Text)) ∧
        (Rendering.Draft.definitions ⟨"main", "main", g.emissions⟩).map Text.lines =
          ([["lv_obj_t * a", " = NULL;"]] : List (List Text)) ∧
        ∀ s ∈ g.emissions.statements, s ≠ .gap → ¬ s.text.InLine := by
  repeat rw [Text.ofString_ofList]
  intro ts
  refine ⟨?_, _, rfl, rfl, by decide, by decide, by decide, by decide⟩
  intro w hw
  rw [List.mem_singleton.1 hw]
  rfl

end LvglForest
