import LvglForest.Proofs.Hierarchy.Latest
import LvglForest.Proofs.Fact.Priority

/-!
# Declarations

A declaration is remembered if its identifier is not created yet. One fact adds at most one key
(`Collection.keys_declared_add`), so the remembered identifiers are those that are declared in time,
in the order of first declaration (`Collection.mem_keys_declared`, `Collection.declared_sublist`).
A declared identifier that is never created keeps the type of its last declaration
(`Collection.get?_declared`), and one that is created gets the kind of its widget. Every created
identifier is in the forest, wherever it hangs, so what is left unused is what no fact creates
(`ParsedFile.build_accounts`).
-/

namespace LvglForest

namespace Fact

/-- The identifier that a fact declares. -/
def declared? (f : Fact) : Option Text :=
  match f.assertion with
  | .declared _ => some f.identifier
  | _ => none

/-- The type that a declaration gives. -/
def type? (f : Fact) : Option Value :=
  match f.assertion with
  | .declared type => some type
  | _ => none

/-- The identifiers that facts declare, in the order of first declaration. -/
def declaredIn (fs : List Fact) : List Text := Text.distinct (fs.filterMap declared?)

/-- An identifier is declared in time: before it is created, or without ever being created. -/
def IsDeclaredInTime (fs : List Fact) (id : Text) : Prop :=
  ∃ before f after, fs = before ++ f :: after ∧ f.declared? = some id ∧ id ∉ createdIn before

/-- What is declared and never created is declared in time. -/
theorem isDeclaredInTime_of_not_mem {fs : List Fact} {id : Text} (h : id ∈ declaredIn fs)
    (hnew : id ∉ createdIn fs) : IsDeclaredInTime fs id := by
  rw [declaredIn, Text.mem_distinct, List.mem_filterMap] at h
  obtain ⟨f, hf, hid⟩ := h
  obtain ⟨before, after, rfl⟩ := List.append_of_mem hf
  refine ⟨before, f, after, rfl, hid, fun hbefore => hnew ?_⟩
  obtain ⟨g, hg, hcreated⟩ := mem_createdIn.1 hbefore
  exact mem_createdIn.2 ⟨g, List.mem_append_left _ hg, hcreated⟩

/-- One more fact can only declare its own identifier in time. -/
theorem isDeclaredInTime_concat {fs : List Fact} {f : Fact} {id : Text} :
    IsDeclaredInTime (fs ++ [f]) id ↔
      IsDeclaredInTime fs id ∨ f.declared? = some id ∧ id ∉ createdIn fs := by
  constructor
  · rintro ⟨before, g, after, hfs, hg, hnew⟩
    rcases List.eq_nil_or_concat after with rfl | ⟨after, h, rfl⟩
    · obtain ⟨rfl, hlast⟩ := List.append_inj' hfs rfl
      cases hlast
      exact .inr ⟨hg, hnew⟩
    · rw [List.concat_eq_append, ← List.cons_append, ← List.append_assoc] at hfs
      obtain ⟨rfl, -⟩ := List.append_inj' hfs rfl
      exact .inl ⟨before, g, after, rfl, hg, hnew⟩
  · rintro (⟨before, g, after, rfl, hg, hnew⟩ | ⟨hf, hnew⟩)
    · exact ⟨before, g, after ++ [f], by simp, hg, hnew⟩
    · exact ⟨fs, f, [], rfl, hf, hnew⟩

end Fact

namespace Collection

/-! ## What is remembered -/

/-- Only a declaration in time adds a key. -/
theorem keys_declared_add (c : Collection) (f : Fact) :
    (c.add f).declared.keys =
      match f.declared? with
      | none => c.declared.keys
      | some id =>
        if id ∈ c.entries.keys ∨ id ∈ c.declared.keys then c.declared.keys
        else c.declared.keys ++ [id] := by
  obtain ⟨id, line, a⟩ := f
  cases a with
  | declared type =>
    simp only [add, Fact.declared?]
    by_cases hentry : id ∈ c.entries.keys
    · rw [if_pos (Table.has_iff_mem_keys.2 hentry), if_pos (.inl hentry)]
    · rw [Table.has_eq_false_iff.2 hentry, if_neg Bool.false_ne_true]
      by_cases hkey : id ∈ c.declared.keys
      · rw [if_pos (.inr hkey), Table.keys_put_of_mem hkey]
      · rw [if_neg (not_or.2 ⟨hentry, hkey⟩), Table.keys_put_of_not_mem hkey]
  | created kind sourceName parent =>
    simp only [add, Fact.declared?]
    split <;> rfl
  | _ => rfl

/-- The remembered identifiers are those that are declared in time. -/
theorem mem_keys_declared {fs : List Fact} {id : Text} :
    id ∈ (ofFacts fs).declared.keys ↔ Fact.IsDeclaredInTime fs id := by
  induction fs using List.reverseRecOn with
  | nil =>
    refine iff_of_false List.not_mem_nil ?_
    rintro ⟨before, f, after, h, -⟩
    exact List.append_ne_nil_of_right_ne_nil _ (List.cons_ne_nil f after) h.symm
  | append_singleton fs f ih =>
    rw [ofFacts_concat, keys_declared_add, Fact.isDeclaredInTime_concat, ← ih,
      keys_entries_ofFacts]
    cases hf : f.declared? with
    | none => simp
    | some name =>
      simp only [Option.some.injEq]
      split
      · next h =>
        refine (or_iff_left_of_imp ?_).symm
        rintro ⟨rfl, hnew⟩
        exact h.resolve_left hnew
      · next h =>
        rw [not_or] at h
        rw [List.mem_append, List.mem_singleton]
        exact or_congr_right ⟨fun e => ⟨e.symm, e ▸ h.1⟩, fun e => e.1.symm⟩

/-- They come in the order of first declaration. -/
theorem declared_sublist (fs : List Fact) :
    (ofFacts fs).declared.keys.Sublist (Fact.declaredIn fs) := by
  induction fs using List.reverseRecOn with
  | nil => exact List.nil_sublist _
  | append_singleton fs f ih =>
    have hlonger : (Fact.declaredIn fs).Sublist (Fact.declaredIn (fs ++ [f])) := by
      rw [Fact.declaredIn, Fact.declaredIn, List.filterMap_append]
      cases hf : f.declared? with
      | none => simp [hf]
      | some id =>
        rw [List.filterMap_cons, hf, List.filterMap_nil, Text.distinct_concat]
        split
        · exact List.Sublist.refl _
        · exact List.sublist_append_left _ _
    rw [ofFacts_concat, keys_declared_add]
    split
    · exact ih.trans hlonger
    · next id hf =>
      split
      · exact ih.trans hlonger
      · next h =>
        rw [not_or, keys_entries_ofFacts] at h
        -- What was declared before and is not remembered was created before.
        have hnew : id ∉ fs.filterMap Fact.declared? := fun hold =>
          h.2 (mem_keys_declared.2
            (Fact.isDeclaredInTime_of_not_mem (Text.mem_distinct.2 hold) h.1))
        rw [Fact.declaredIn, List.filterMap_append, List.filterMap_cons, hf, List.filterMap_nil,
          Text.distinct_concat, if_neg hnew]
        exact ih.append_right [id]

/-- What is never created keeps the type of its last declaration. -/
theorem get?_declared {fs : List Fact} {id : Text} (h : id ∉ Fact.createdIn fs) :
    (ofFacts fs).declared.get? id = Fact.latest? Fact.type? (Fact.about id fs) := by
  induction fs using List.reverseRecOn with
  | nil => rfl
  | append_singleton fs f ih =>
    have hbefore : id ∉ Fact.createdIn fs := fun hmem => by
      obtain ⟨g, hg, hcreated⟩ := Fact.mem_createdIn.1 hmem
      exact h (Fact.mem_createdIn.2 ⟨g, List.mem_append_left _ hg, hcreated⟩)
    rw [ofFacts_concat]
    by_cases hid : f.identifier = id
    · subst hid
      have hentry : (ofFacts fs).entries.has f.identifier = false := by
        rwa [Table.has_eq_false_iff, keys_entries_ofFacts]
      rw [Fact.about_concat, Fact.latest?, List.filterMap_append, List.getLast?_append]
      obtain ⟨id, line, a⟩ := f
      cases a with
      | declared type => simp [add, hentry, Table.get?_put, Fact.type?]
      | created kind sourceName parent =>
        exact absurd (Fact.mem_createdIn.2 ⟨_, List.mem_append_right _ List.mem_cons_self, rfl⟩) h
      | _ => exact ih hbefore
    · rw [Fact.about_concat_of_ne hid, ← ih hbefore]
      exact congrArg Prod.snd (view_add_of_ne hid (ofFacts fs))

theorem keys_declarations (c : Collection) : c.declarations.keys = c.declared.keys := by
  simp [declarations, Table.keys, Function.comp_def]

end Collection

namespace ParsedFile

/-- **The declarations of a file account for its facts.** They are the identifiers that are declared
in time, in the order of first declaration; what is created has the kind of its widget, and all else
the type of its last declaration. What is created has a widget, and the unused declarations are
those of what is not. -/
structure AccountsFor (fs : List Fact) (p : ParsedFile) : Prop where
  keys : ∀ id, id ∈ p.declarations.keys ↔ Fact.IsDeclaredInTime fs id
  order : p.declarations.keys.Sublist (Fact.declaredIn fs)
  widgets : ∀ id ∈ Fact.createdIn fs, ∃ w ∈ Forest.toList p.widgets, w.identifier = .text id
  kinds : ∀ d ∈ p.declarations, ∀ w ∈ Forest.toList p.widgets,
    w.identifier = .text d.1 → d.2 = w.kind
  types : ∀ d ∈ p.declarations, d.1 ∉ Fact.createdIn fs →
    Fact.latest? Fact.type? (Fact.about d.1 fs) = some d.2
  unused : p.unusedDeclarations = p.declarations.keys.filter (· ∉ Fact.createdIn fs)

/-- The identifiers of the widgets are the created ones. -/
theorem exists_widget_iff (placeholders file : Value) (fs : List Fact) (id : Text) :
    (∃ w ∈ Forest.toList (ofFacts placeholders file fs).widgets, w.identifier = .text id) ↔
      id ∈ Fact.createdIn fs := by
  have hperm := (forestOf_ofFacts placeholders file fs).perm
  rw [← List.mem_map, hperm.mem_iff, List.mem_map]
  simp

theorem accountsFor_ofFacts (placeholders file : Value) (fs : List Fact) :
    AccountsFor fs (ofFacts placeholders file fs) := by
  have hkeys : (ofFacts placeholders file fs).declarations.keys =
      (Collection.ofFacts fs).declared.keys := Collection.keys_declarations _
  have horder := Collection.declared_sublist fs
  have hn : (ofFacts placeholders file fs).declarations.keys.Nodup :=
    hkeys ▸ (Text.nodup_distinct _).sublist horder
  -- The value of a declaration, by its identifier.
  have hget : ∀ d ∈ (ofFacts placeholders file fs).declarations,
      ((Collection.ofFacts fs).declared.get? d.1).map
        (fun type => ((Collection.ofFacts fs).entries.get? d.1).elim type Entry.kind) =
          some d.2 := by
    intro d hd
    rw [← Collection.get?_declarations]
    exact Table.get?_of_mem hn hd
  refine {
    keys := fun id => hkeys ▸ Collection.mem_keys_declared
    order := hkeys ▸ horder
    widgets := fun id hid => (exists_widget_iff placeholders file fs id).2 hid
    kinds := ?_
    types := ?_
    unused := ?_ }
  · intro d hd w hw hid
    obtain ⟨⟨name, e⟩, he, parent, rfl⟩ := exists_entry_of_mem_widgets hw
    obtain rfl : name = d.1 := Value.text.inj hid
    have hentry := Table.get?_of_mem (Collection.nodup_keys_entries fs) he
    obtain ⟨type, -, hkind⟩ := Option.map_eq_some_iff.1 (hget d hd)
    rw [hentry] at hkind
    exact hkind.symm
  · intro d hd hnew
    have hnone : (Collection.ofFacts fs).entries.get? d.1 = none := by
      rw [← Option.not_isSome_iff_eq_none, ← Table.has, Table.has_iff_mem_keys,
        Collection.keys_entries_ofFacts]
      exact hnew
    have hvalue := hget d hd
    rw [hnone, Collection.get?_declared hnew] at hvalue
    simpa using hvalue
  · refine List.filter_congr fun id _ => ?_
    rw [Bool.eq_iff_iff, Bool.not_eq_true', ← Bool.not_eq_true, List.any_eq_true,
      decide_eq_true_iff, ← exists_widget_iff placeholders file fs id]
    simp only [Value.isText_eq_true_iff]

/-- **Declarations are accounted for.** Whatever the facts say and in whatever order, the
declarations of a built file account for them; and with texts for parents and for placeholders the
file is always built. -/
theorem build_accounts (file : Value) (fs : List Fact) :
    (∀ placeholders p, build placeholders file fs = .ok p → AccountsFor fs p) ∧
    ((∀ f ∈ fs, f.HasTextParent) →
      ∀ names, ∃ p, build (.texts names) file fs = .ok p ∧ AccountsFor fs p) := by
  constructor
  · intro placeholders p hp
    obtain ⟨rfl, -⟩ := build_eq_ok.1 hp
    exact accountsFor_ofFacts placeholders file fs
  · intro hparents names
    have hfault := Attachment.fault?_texts names (Collection.ofFacts fs).entries
      (Collection.parent_ofFacts hparents) (Attachment.seeds (Collection.ofFacts fs).entries)
    exact ⟨_, build_eq_ok.2 ⟨rfl, hfault⟩, accountsFor_ofFacts _ file fs⟩

/-- Two widgets on a circle, one of them declared in time and created twice, the other declared too
late, a widget below them that is declared in time, and one that is declared twice and never
created. -/
def announced : List Fact :=
  let declared (id : Text) (line : Int) (type : Text) : Fact :=
    ⟨id, .integer line, .declared (.text type)⟩
  let created (id : Text) (line : Int) (kind parent : Text) : Fact :=
    ⟨id, .integer line, .created (.text kind) [] (.text parent)⟩
  [declared "spare" 1 "lv_obj_t", declared "leaf" 2 "lv_obj_t", declared "ring" 3 "lv_obj_t",
    created "ring" 4 "label" "rung", created "rung" 5 "container" "ring",
    declared "rung" 6 "lv_obj_t", created "leaf" 7 "button" "rung",
    declared "spare" 8 "lv_btn_t", created "ring" 9 "slider" "rung"]

theorem build_accounts_announced :
    ∃ p, build Attachment.defaultPlaceholders .null announced = .ok p ∧
      AccountsFor announced p ∧
      p.declarations.keys = ["spare", "leaf", "ring"] ∧
      p.declarations.map (·.2) = [.text "lv_btn_t", .text "button", .text "slider"] ∧
      p.unusedDeclarations = ["spare"] := by
  obtain ⟨p, hp, haccounts⟩ :=
    (build_accounts .null announced).2 (by simp [announced, Fact.HasTextParent]) ["parent"]
  refine ⟨p, hp, haccounts, ?_⟩
  obtain ⟨rfl, -⟩ := build_eq_ok.1 hp
  exact ⟨by rfl, by rfl, by rfl⟩

end ParsedFile

end LvglForest
