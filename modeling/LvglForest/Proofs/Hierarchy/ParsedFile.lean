import LvglForest.Hierarchy.ParsedFile
import LvglForest.Proofs.Hierarchy.Attachment
import LvglForest.Proofs.Hierarchy.Collection

/-!
# The forest that facts build

Building a file makes widgets of the identifiers of the attachment forest and changes nothing of its
form, so what the attachment invariant says of identifiers holds of widgets (`ForestOf`). A fault
can end the work only through a reference that is no text or through placeholders that hold
nothing; with texts for both, building always ends with a forest (`ParsedFile.build_forestOf`).
-/

namespace LvglForest

/-- What a creation writes for the parent is a text, as it is in source. -/
def Fact.HasTextParent (f : Fact) : Prop :=
  ∀ kind sourceName parent, f.assertion = .created kind sourceName parent → ∃ t, parent = .text t

/-- **The forest of facts.** Every created identifier is in the forest once and nothing else is, the
roots and the children of every widget come in the order of first creation, and every widget below
another one names it as its parent. -/
structure ForestOf (fs : List Fact) (ws : Forest Widget) : Prop where
  perm : ((Forest.toList ws).map Widget.identifier).Perm ((Fact.createdIn fs).map .text)
  roots : (ws.map (·.label.identifier)).Sublist ((Fact.createdIn fs).map .text)
  children : ∀ t ∈ Forest.subtrees ws,
    (t.children.map (·.label.identifier)).Sublist ((Fact.createdIn fs).map .text)
  parents : ∀ t ∈ Forest.subtrees ws, ∀ c ∈ t.children, c.label.parent = t.label.identifier

/-! ## Faults -/

namespace Attachment

theorem standing_texts (names : List Text) (entries : Table Entry) (ts : Forest Text)
    (id reference : Text) : ∃ s, standing (.texts names) entries ts id (.text reference) = .ok s := by
  have hholds : ∃ b, placeholder? (.texts names) (.text reference) = .ok b := by
    rw [placeholder?]
    split
    · exact ⟨_, rfl⟩
    · exact ⟨true, rfl⟩
  obtain ⟨b, hb⟩ := hholds
  unfold standing
  rw [hb]
  by_cases h : isMovable entries ts id (.text reference)
  · exact ⟨.attached, by rw [if_pos h]; rfl⟩
  · exact ⟨if b then .placed else .unresolved, by rw [if_neg h]; rfl⟩

/-- Texts as references and as placeholders make no fault. -/
theorem fault?_texts (names : List Text) (entries : Table Entry) {rest : List (Text × Entry)}
    (h : ∀ e ∈ rest, ∃ t, e.2.parent = .text t) (ts : Forest Text) :
    fault? (.texts names) entries ts rest = none := by
  induction rest generalizing ts with
  | nil => rfl
  | cons e rest ih =>
    obtain ⟨id, e⟩ := e
    rw [List.forall_mem_cons] at h
    obtain ⟨t, ht⟩ := h.1
    obtain ⟨s, hs⟩ := standing_texts names entries ts id t
    simp only at ht
    rw [fault?, ht, hs]
    exact ih h.2 _

end Attachment

/-- With texts for parents in the facts, the entries have texts for parents. -/
theorem Collection.parent_ofFacts {fs : List Fact} (h : ∀ f ∈ fs, f.HasTextParent) :
    ∀ e ∈ (Collection.ofFacts fs).entries, ∃ t, e.2.parent = .text t := by
  refine Collection.forall_entries_ofFacts (P := fun e => ∃ t, e.parent = .text t) ?_ ?_
  · intro f hf kind sourceName parent ha
    exact h f hf kind sourceName parent ha
  · intro f hf e he
    obtain ⟨id, line, a⟩ := f
    cases a with
    | created kind sourceName parent => exact h _ hf kind sourceName parent rfl
    | _ => exact he

namespace ParsedFile

/-! ## Dressing a forest -/

section Dress

variable (file : Value) (entries : Table Entry)

@[simp] theorem identifier_widget (id : Text) (parent : Value) :
    (widget file entries id parent).identifier = .text id := by
  unfold widget
  cases entries.get? id <;> rfl

theorem parent_widget {id : Text} (h : id ∈ entries.keys) (parent : Value) :
    (widget file entries id parent).parent = parent := by
  obtain ⟨e, he⟩ := Table.exists_get? h
  rw [widget, he]
  rfl

theorem dressChildren_eq_map (parent : Value) (ts : Forest Text) :
    dressChildren file entries parent ts = ts.map (dressTree file entries parent) := by
  induction ts with
  | nil => rfl
  | cons t ts ih => rw [dressChildren, ih, List.map_cons]

theorem label_dressTree (parent : Value) (t : Tree Text) :
    (dressTree file entries parent t).label = widget file entries t.label parent := by
  cases t
  rw [dressTree, Tree.label, Tree.label]

theorem children_dressTree (parent : Value) (t : Tree Text) :
    (dressTree file entries parent t).children =
      t.children.map (dressTree file entries (.text t.label)) := by
  cases t
  rw [dressTree, Tree.children, Tree.children, Tree.label, dressChildren_eq_map]

theorem identifiers_dressTree (t : Tree Text) (parent : Value) :
    (dressTree file entries parent t).toList.map Widget.identifier = t.toList.map .text := by
  induction t using Tree.ind generalizing parent with
  | node id ts ih =>
    rw [dressTree, dressChildren_eq_map, Tree.toList, Tree.toList, List.map_cons, List.map_cons,
      identifier_widget, Forest.toList_eq_flatMap, Forest.toList_eq_flatMap, List.flatMap_map,
      List.map_flatMap, List.map_flatMap]
    refine congrArg _ ?_
    simp only [List.flatMap_def]
    exact congrArg List.flatten (List.map_congr_left fun t ht => ih t ht _)

/-- What is below a dressed tree is what is below the tree, dressed. -/
theorem mem_subtrees_dressTree {u : Tree Widget} (t : Tree Text) {parent : Value}
    (h : u ∈ (dressTree file entries parent t).subtrees) :
    ∃ s ∈ t.subtrees, ∃ p, u = dressTree file entries p s := by
  induction t using Tree.ind generalizing parent with
  | node id ts ih =>
    have hself := Tree.mem_subtrees_self (.node id ts)
    rw [dressTree, dressChildren_eq_map, Tree.subtrees, List.mem_cons] at h
    rcases h with rfl | h
    · exact ⟨_, hself, parent, by rw [dressTree, dressChildren_eq_map]⟩
    · rw [Forest.subtrees_eq_flatMap, List.flatMap_map, List.mem_flatMap] at h
      obtain ⟨t, ht, hu⟩ := h
      obtain ⟨s, hs, p, rfl⟩ := ih t ht hu
      exact ⟨s, List.mem_cons_of_mem _ (Forest.mem_subtrees_of_mem ht hs), p, rfl⟩

/-- What is below a tree is below the dressed tree, dressed. -/
theorem exists_mem_subtrees_dressTree {s : Tree Text} (t : Tree Text) (parent : Value)
    (h : s ∈ t.subtrees) :
    ∃ p, dressTree file entries p s ∈ (dressTree file entries parent t).subtrees := by
  induction t using Tree.ind generalizing parent with
  | node id ts ih =>
    rw [Tree.subtrees, List.mem_cons] at h
    rcases h with rfl | h
    · exact ⟨parent, Tree.mem_subtrees_self _⟩
    · rw [Forest.subtrees_eq_flatMap, List.mem_flatMap] at h
      obtain ⟨t, ht, hs⟩ := h
      obtain ⟨p, hp⟩ := ih t ht (.text id) hs
      refine ⟨p, ?_⟩
      rw [dressTree, dressChildren_eq_map, Tree.subtrees]
      exact List.mem_cons_of_mem _ (Forest.mem_subtrees_of_mem (List.mem_map_of_mem ht) hp)

/-- What is below a dressed forest is what is below the forest, dressed. -/
theorem mem_subtrees_map_dressTree {u : Tree Widget} {ts : Forest Text} {parent : Tree Text → Value}
    (hu : u ∈ Forest.subtrees (ts.map fun t => dressTree file entries (parent t) t)) :
    ∃ s ∈ Forest.subtrees ts, ∃ p, u = dressTree file entries p s := by
  rw [Forest.subtrees_eq_flatMap, List.flatMap_map, List.mem_flatMap] at hu
  obtain ⟨t, ht, hu⟩ := hu
  obtain ⟨s, hs, hu⟩ := mem_subtrees_dressTree file entries t hu
  exact ⟨s, Forest.mem_subtrees_of_mem ht hs, hu⟩

end Dress

/-! ## Building -/

/-- The widgets of any facts are the forest of the facts. -/
theorem forestOf_ofFacts (placeholders file : Value) (fs : List Fact) :
    ForestOf fs (ofFacts placeholders file fs).widgets := by
  have ho := Attachment.ordered_forest (Collection.nodup_keys_entries fs)
  rw [ofFacts, ofCollection]
  generalize hentries : (Collection.ofFacts fs).entries = entries at ho ⊢
  generalize hforest : Attachment.forest entries = ts at ho ⊢
  have hkeys : entries.keys = Fact.createdIn fs := by
    rw [← hentries, Collection.keys_entries_ofFacts]
  have hlabels (parent : Tree Text → Value) (us : Forest Text) :
      (us.map fun t => dressTree file entries (parent t) t).map (·.label.identifier) =
        (us.map Tree.label).map .text := by
    simp [label_dressTree, Function.comp_def]
  rw [hkeys] at ho
  constructor
  · have htoList (parent : Tree Text → Value) :
        (Forest.toList (ts.map fun t => dressTree file entries (parent t) t)).map
          Widget.identifier = (Forest.toList ts).map .text := by
      rw [Forest.toList_eq_flatMap, Forest.toList_eq_flatMap, List.flatMap_map, List.map_flatMap,
        List.map_flatMap]
      simp only [identifiers_dressTree]
    rw [htoList]
    exact ho.perm.map _
  · rw [hlabels]
    exact ho.roots.map _
  · intro u hu
    obtain ⟨s, hs, p, rfl⟩ := mem_subtrees_map_dressTree file entries hu
    rw [children_dressTree, hlabels fun _ => .text s.label]
    exact (ho.children s hs).map _
  · intro u hu c hc
    obtain ⟨s, hs, p, rfl⟩ := mem_subtrees_map_dressTree file entries hu
    rw [children_dressTree, List.mem_map] at hc
    obtain ⟨t, ht, rfl⟩ := hc
    have hmem : t.label ∈ entries.keys :=
      hkeys ▸ (ho.children s hs).subset (List.mem_map_of_mem ht)
    rw [label_dressTree, label_dressTree, parent_widget file entries hmem, identifier_widget]

/-- A file is built unless a fault ends the turns. -/
theorem build_eq_ok {placeholders fileName : Value} {fs : List Fact} {p : ParsedFile} :
    build placeholders fileName fs = .ok p ↔ ofFacts placeholders fileName fs = p ∧
      Attachment.fault? placeholders (Collection.ofFacts fs).entries
        (Attachment.seeds (Collection.ofFacts fs).entries) (Collection.ofFacts fs).entries = none := by
  unfold build
  simp only
  split
  · next f hfault => simp [hfault]
  · next hfault => simp [hfault]

/-- **Building loses and repeats nothing.** Whatever the facts say and in whatever order, with
repeated creations and circular references, what is built is the forest of the facts; and with
texts for parents and for placeholders it is always built. -/
theorem build_forestOf (file : Value) (fs : List Fact) :
    (∀ placeholders p, build placeholders file fs = .ok p → ForestOf fs p.widgets) ∧
    ((∀ f ∈ fs, f.HasTextParent) →
      ∀ names, ∃ p, build (.texts names) file fs = .ok p ∧ ForestOf fs p.widgets) := by
  constructor
  · intro placeholders p hp
    unfold build at hp
    simp only at hp
    split at hp
    · cases hp
    · cases hp
      exact forestOf_ofFacts placeholders file fs
  · intro hparents names
    refine ⟨ofFacts (.texts names) file fs, ?_, forestOf_ofFacts _ _ _⟩
    unfold build
    simp only
    rw [Attachment.fault?_texts names _ (Collection.parent_ofFacts hparents)]

/-- Two widgets that name each other, one of them created twice, a third one that names itself and
a property of a widget that is never created. -/
def tangled : List Fact :=
  let panel : Value := .text Kind.container.name
  [{ identifier := "a", line := .integer 1, assertion := .created panel [] (.text "b") },
    { identifier := "b", line := .integer 2, assertion := .created panel [] (.text "a") },
    { identifier := "c", line := .integer 3, assertion := .created panel [] (.text "c") },
    { identifier := "a", line := .integer 4, assertion := .created panel [] (.text "b") },
    { identifier := "d", line := .integer 5, assertion := .text (.text "lost") }]

theorem build_forestOf_tangled :
    Fact.createdIn tangled = ["a", "b", "c"] ∧
      ∃ p, build Attachment.defaultPlaceholders .null tangled = .ok p ∧
        ForestOf tangled p.widgets := by
  refine ⟨by decide, (build_forestOf .null tangled).2 ?_ ["parent"]⟩
  simp only [tangled, List.forall_mem_cons, Fact.HasTextParent]
  simp

end ParsedFile

end LvglForest
