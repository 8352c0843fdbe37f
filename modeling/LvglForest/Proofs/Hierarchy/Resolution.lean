import LvglForest.Proofs.Hierarchy.Order
import LvglForest.Proofs.Hierarchy.Source
import Mathlib.Data.Finset.Max

/-!
# Which references are followed

References may run in circles, and an identifier is hung only if what its reference names does not
lie below it already. Nobody who had no turn yet has been hung, so the whole circle lies below an
identifier exactly when all others of the circle had their turns before
(`Attachment.Resolved.mem_toList_iff`). Hence each circle is cut at one identifier, the one of it
that was created last, and every other reference to a created identifier is followed
(`ParsedFile.build_resolved`).
-/

namespace LvglForest

/-! ## Circles -/

section Circle

variable {α : Type} {r : α → α → Prop} {a b c : α}

/-- Two lie on one circle of steps. -/
def OnOneCircle (r : α → α → Prop) (a b : α) : Prop :=
  Relation.TransGen r a b ∧ Relation.TransGen r b a

/-- One lies on a circle of steps, and no other one of this circle comes later in a list. -/
def EndsCircle [BEq α] (r : α → α → Prop) (as : List α) (a : α) : Prop :=
  OnOneCircle r a a ∧ ∀ b, OnOneCircle r a b → as.idxOf b ≤ as.idxOf a

theorem OnOneCircle.symm (h : OnOneCircle r a b) : OnOneCircle r b a := And.symm h

theorem OnOneCircle.trans (hab : OnOneCircle r a b) (hbc : OnOneCircle r b c) : OnOneCircle r a c :=
  ⟨hab.1.trans hbc.1, hbc.2.trans hab.2⟩

/-- Where there is one way to go, who is on a circle stays on it. -/
theorem OnOneCircle.of_transGen (hr : Relator.RightUnique r) (ha : Relation.TransGen r a a)
    (h : Relation.TransGen r a b) : OnOneCircle r a b := by
  refine ⟨h, ?_⟩
  induction h with
  | single hab =>
    obtain ⟨x, hax, hxa⟩ := Relation.TransGen.head'_iff.1 ha
    rw [hr hab hax]
    exact ha.trans_right hxa
  | tail _ hbc ih =>
    obtain ⟨x, hbx, hxa⟩ := Relation.TransGen.head'_iff.1 ih
    rw [hr hbc hbx]
    exact ha.trans_right hxa

/-- A circle ends at one place. -/
theorem EndsCircle.unique [BEq α] [LawfulBEq α] {as : List α} (ha : EndsCircle r as a)
    (hb : EndsCircle r as b) (hab : OnOneCircle r a b) (hmem : a ∈ as) : a = b :=
  (List.idxOf_inj hmem).1 (Nat.le_antisymm (hb.2 a hab.symm) (ha.2 b hab))

end Circle

/-- In a list without repetition, what stands no later than an element. -/
theorem idxOf_le_iff_of_nodup {α : Type} [BEq α] [LawfulBEq α] {as bs : List α} {a x : α}
    (hn : (as ++ a :: bs).Nodup) :
    (as ++ a :: bs).idxOf x ≤ (as ++ a :: bs).idxOf a ↔ x ∈ as ++ [a] := by
  have ha : a ∉ as := fun h => (List.nodup_append.1 hn).2.2 a h a List.mem_cons_self rfl
  rw [List.idxOf_append_of_notMem ha, List.idxOf_cons_self, Nat.add_zero, List.mem_append,
    List.mem_singleton]
  by_cases hx : x ∈ as
  · have hlt := List.idxOf_lt_length_of_mem hx
    simp only [List.idxOf_append_of_mem hx, hlt.le, hx, true_or]
  · rw [List.idxOf_append_of_notMem hx, List.idxOf_cons]
    by_cases hxa : x = a
    · simp [hxa]
    · simp [hx, hxa, beq_eq_false_iff_ne.2 (Ne.symm hxa)]

namespace Attachment

/-- The reference of an identifier names a created one. -/
def Names (entries : Table Entry) (child parent : Text) : Prop := above entries child = some parent

variable {entries : Table Entry} {done : List Text} {ts : Forest Text} {id : Text} {e : Entry}

theorem rightUnique_names (entries : Table Entry) : Relator.RightUnique (Names entries) :=
  fun _ _ _ h h' => Option.some.inj (h.symm.trans h')

theorem mem_keys_of_names {x y : Text} (h : Names entries x y) :
    x ∈ entries.keys ∧ y ∈ entries.keys := by
  cases he : entries.get? x with
  | none =>
    rw [Names, above, he] at h
    cases h
  | some e =>
    exact ⟨Table.has_iff_mem_keys.1 (by rw [Table.has, he]; rfl), (above_eq_some he h).2⟩

/-- **The invariant of turns.** Every child stands below what its reference names and ends no
circle, who has had no turn is a root, and who has had one is a root only if the reference names no
created identifier or a circle ends there. -/
structure Resolved (entries : Table Entry) (done : List Text) (ts : Forest Text) : Prop where
  ordered : Ordered entries.keys done ts
  child : ∀ t ∈ Forest.subtrees ts, ∀ c ∈ t.children, Names entries c.label t.label ∧
    ¬ EndsCircle (Names entries) entries.keys c.label
  pending : ∀ id ∈ entries.keys, id ∉ done → id ∈ ts.map Tree.label
  settled : ∀ id ∈ done, id ∈ ts.map Tree.label →
    above entries id = none ∨ EndsCircle (Names entries) entries.keys id

namespace Resolved

theorem seeds (entries : Table Entry) : Resolved entries [] (seeds entries) where
  ordered := ordered_seeds entries
  child t ht c hc := by
    rw [children_of_mem_subtrees_seeds ht] at hc
    cases hc
  pending id hid _ := by
    rw [labels_seeds]
    exact hid
  settled id hid := absurd hid List.not_mem_nil

variable (h : Resolved entries done ts)
include h

/-- What is below an identifier has had its turn, and what it names is there too. -/
theorem below {tree : Tree Text} (htree : tree ∈ ts) {x : Text} (hx : x ∈ tree.toList) :
    x = tree.label ∨ x ∈ done ∧ ∃ y ∈ tree.toList, Names entries x y := by
  refine (Tree.exists_above tree hx).imp id ?_
  rintro ⟨s, hs, hxs⟩
  have hsts : s ∈ Forest.subtrees ts := Forest.mem_subtrees_of_mem htree hs
  refine ⟨(h.ordered.children s hsts).subset hxs, s.label, ?_, ?_⟩
  · rw [← Tree.map_label_subtrees]
    exact List.mem_map_of_mem hs
  · obtain ⟨c, hc, rfl⟩ := List.mem_map.1 hxs
    exact (h.child s hsts c hc).1

/-- Who has had a turn and ends no circle is below what it names. -/
theorem mem_children (hn : entries.keys.Nodup) {x y : Text} (hx : x ∈ done)
    (hnames : Names entries x y) (hends : ¬ EndsCircle (Names entries) entries.keys x)
    {s : Tree Text} (hs : s ∈ Forest.subtrees ts) (hy : s.label = y) :
    x ∈ s.children.map Tree.label := by
  have hnotRoot : x ∉ ts.map Tree.label := fun hroot =>
    (h.settled x hx hroot).elim (fun hnone => Option.some_ne_none y (hnames.symm.trans hnone)) hends
  have hmem : x ∈ Forest.toList ts := h.ordered.perm.symm.subset (mem_keys_of_names hnames).1
  obtain ⟨u, hu, hxu⟩ := (Forest.exists_above ts hmem).resolve_left hnotRoot
  obtain ⟨c, hc, rfl⟩ := List.mem_map.1 hxu
  have hlabel : u.label = s.label :=
    (rightUnique_names entries (h.child u hu c hc).1 hnames).trans hy.symm
  have hnodup : ((Forest.subtrees ts).map Tree.label).Nodup := by
    rw [Forest.map_label_subtrees]
    exact h.ordered.perm.nodup_iff.2 hn
  rw [← List.inj_on_of_nodup_map hnodup hu hs hlabel]
  exact hxu

section Turn

variable (hn : entries.keys.Nodup) {rest : List Text} (hkeys : entries.keys = done ++ id :: rest)
  {tree : Tree Text} (hroot : Forest.rooted? id ts = some tree) {parent : Text}
  (hnames : Names entries id parent)
include hn hkeys hroot hnames

/-- A tree that holds what its root names is closed under references, so it holds the whole circle,
and what is below the root has had its turn. -/
theorem endsCircle_of_mem_toList (hparent : parent ∈ tree.toList) :
    EndsCircle (Names entries) entries.keys id := by
  have htree : tree ∈ ts := List.mem_of_find?_eq_some hroot
  have hlabel : tree.label = id := Forest.label_of_rooted? hroot
  have hclosed : ∀ x ∈ tree.toList, ∀ y, Names entries x y → y ∈ tree.toList := by
    intro x hx y hxy
    rcases h.below htree hx with hxid | ⟨-, z, hz, hxz⟩
    · rw [hxid, hlabel] at hxy
      rwa [rightUnique_names entries hxy hnames]
    · rwa [rightUnique_names entries hxy hxz]
  have hcircle : Relation.TransGen (Names entries) id id := by
    have hup := reaches_of_mem (fun t ht c hc => (h.child t ht c hc).1) tree
      (Forest.mem_subtrees_of_mem htree (Tree.mem_subtrees_self tree)) hparent
    rw [hlabel] at hup
    exact .head' hnames hup
  refine ⟨⟨hcircle, hcircle⟩, fun x hx => ?_⟩
  have hmem : x ∈ tree.toList := by
    -- Along the circle, starting with what the root names.
    have hreached := hx.1
    induction hreached with
    | single hy => rwa [rightUnique_names entries hy hnames]
    | tail hy hyz ih =>
      exact hclosed _ (ih (.of_transGen (rightUnique_names entries) hcircle hy)) _ hyz
  rw [hkeys] at hn ⊢
  rw [idxOf_le_iff_of_nodup hn, List.mem_append, List.mem_singleton]
  rcases h.below htree hmem with hxid | ⟨hdone, -⟩
  · exact .inr (hxid.trans hlabel)
  · exact .inl hdone

/-- At the end of a circle all others of it have had their turns and were hung, so they lie below,
seen from the identifier backwards. -/
theorem mem_toList_of_endsCircle (hends : EndsCircle (Names entries) entries.keys id) :
    parent ∈ tree.toList := by
  have htree : tree ∈ ts := List.mem_of_find?_eq_some hroot
  have hself : id ∈ tree.toList := by
    rw [← Forest.label_of_rooted? hroot, ← Tree.map_label_subtrees]
    exact List.mem_map_of_mem (Tree.mem_subtrees_self tree)
  have hid : id ∉ done := by
    rw [hkeys] at hn
    exact fun hmem => (List.nodup_append.1 hn).2.2 id hmem id List.mem_cons_self rfl
  -- Back from the identifier along its circle, each one was hung below the one before it.
  have hall : ∀ x, Relation.ReflTransGen (Names entries) x id →
      Relation.TransGen (Names entries) id x → x ∈ tree.toList := by
    intro x hx
    induction hx using Relation.ReflTransGen.head_induction_on with
    | refl => exact fun _ => hself
    | @head x y hxy hy ih =>
      intro hx
      by_cases hxid : x = id
      · rwa [hxid]
      have hcircle : OnOneCircle (Names entries) id x := ⟨hx, .head' hxy hy⟩
      have hdone : x ∈ done := by
        have hlast := hends.2 x hcircle
        rw [hkeys] at hn hlast
        rw [idxOf_le_iff_of_nodup hn, List.mem_append, List.mem_singleton] at hlast
        exact hlast.resolve_right hxid
      have hxends : ¬ EndsCircle (Names entries) entries.keys x := fun hxends =>
        hxid (hends.unique hxends hcircle (mem_keys_of_names hnames).1).symm
      have hymem := ih (hx.tail hxy)
      rw [← Tree.map_label_subtrees] at hymem ⊢
      obtain ⟨s, hs, hsy⟩ := List.mem_map.1 hymem
      have hchild := h.mem_children hn hdone hxy hxends (Forest.mem_subtrees_of_mem htree hs) hsy
      obtain ⟨c, hc, rfl⟩ := List.mem_map.1 hchild
      exact List.mem_map_of_mem (Tree.mem_subtrees_of_child hc tree hs)
  obtain ⟨y, hy, hback⟩ := Relation.TransGen.head'_iff.1 hends.1.1
  rw [rightUnique_names entries hy hnames] at hback
  exact hall parent hback (.single hnames)

/-- **An identifier can be hung below what it names unless it ends a circle.** -/
theorem movable?_eq_none_iff :
    movable? entries ts id parent = none ↔ EndsCircle (Names entries) entries.keys id := by
  have hhas := Table.has_iff_mem_keys.2 (mem_keys_of_names hnames).2
  have hmem : parent ∈ tree.toList ↔ EndsCircle (Names entries) entries.keys id :=
    ⟨h.endsCircle_of_mem_toList hn hkeys hroot hnames,
      h.mem_toList_of_endsCircle hn hkeys hroot hnames⟩
  unfold movable?
  simp [hroot, hhas, hmem]

end Turn

/-- An identifier stays a root if it names no created one or ends a circle. -/
theorem stay (hstay : above entries id = none ∨ EndsCircle (Names entries) entries.keys id) :
    Resolved entries (done ++ [id]) ts where
  ordered := h.ordered.mono (List.sublist_append_left _ _)
  child := h.child
  pending x hx hdone := h.pending x hx fun hmem => hdone (List.mem_append_left _ hmem)
  settled x hx hroot := by
    rcases List.mem_append.1 hx with hx | hx
    · exact h.settled x hx hroot
    · rwa [List.mem_singleton.1 hx]

/-- Any other identifier is hung below what it names. -/
theorem graft (hn : entries.keys.Nodup) {parent : Text} {tree : Tree Text}
    (hmovable : movable? entries ts id parent = some tree) (hnames : Names entries id parent)
    (hends : ¬ EndsCircle (Names entries) entries.keys id) :
    Resolved entries (done ++ [id]) (Forest.graft parent tree (Forest.without id ts)) := by
  obtain ⟨hroot, hparent, hout⟩ := movable?_eq_some hmovable
  refine ⟨h.ordered.graft hn hroot hparent hout, ?_, fun x hx hdone => ?_, fun x hx hxroot => ?_⟩
  · exact child_graft (R := fun c p => Names entries c p ∧
      ¬ EndsCircle (Names entries) entries.keys c) h.child hroot ⟨hnames, hends⟩
  · rw [List.mem_append, List.mem_singleton, not_or] at hdone
    rw [Forest.labels_graft, Forest.mem_labels_without]
    exact ⟨h.pending x hx hdone.1, hdone.2⟩
  · rw [Forest.labels_graft, Forest.mem_labels_without] at hxroot
    rcases List.mem_append.1 hx with hx | hx
    · exact h.settled x hx hxroot.1
    · exact absurd (List.mem_singleton.1 hx) hxroot.2

/-- One turn keeps the invariant. -/
theorem attach (hn : entries.keys.Nodup) {rest : List Text}
    (hkeys : entries.keys = done ++ id :: rest) (he : entries.get? id = some e) :
    Resolved entries (done ++ [id]) (attach entries ts id e.parent) := by
  have hdone : id ∉ done := by
    rw [hkeys] at hn
    exact fun hmem => (List.nodup_append.1 hn).2.2 id hmem id List.mem_cons_self rfl
  have hpending : id ∈ ts.map Tree.label :=
    h.pending id (hkeys ▸ List.mem_append_right _ List.mem_cons_self) hdone
  cases habove : above entries id with
  | none =>
    rw [attach_of_above_eq_none he habove]
    exact h.stay (.inl habove)
  | some parent =>
    obtain ⟨tree, hroot⟩ := Forest.exists_rooted? hpending
    have hiff := h.movable?_eq_none_iff hn hkeys hroot habove
    rw [(above_eq_some he habove).1, Attachment.attach]
    cases hmovable : movable? entries ts id parent with
    | none => exact h.stay (.inr (hiff.1 hmovable))
    | some moved =>
      refine h.graft hn hmovable habove fun hends => ?_
      rw [hiff.2 hends] at hmovable
      cases hmovable

/-- So does a run of turns. -/
theorem attachAll (hn : entries.keys.Nodup) {rest : List (Text × Entry)}
    (hkeys : entries.keys = done ++ rest.map (·.1))
    (hrest : ∀ e ∈ rest, entries.get? e.1 = some e.2) :
    Resolved entries entries.keys (attachAll entries ts rest) := by
  induction rest generalizing done ts with
  | nil =>
    rw [List.map_nil, List.append_nil] at hkeys
    rw [hkeys]
    exact h
  | cons e rest ih =>
    obtain ⟨id, e⟩ := e
    rw [List.forall_mem_cons] at hrest
    refine ih (h.attach hn hkeys hrest.1) ?_ hrest.2
    rw [hkeys, List.append_assoc]
    rfl

end Resolved

/-- **At the end every turn is decided by the references.** -/
theorem resolved_forest (hn : entries.keys.Nodup) :
    Resolved entries entries.keys (forest entries) :=
  (Resolved.seeds entries).attachAll hn rfl fun _ he => Table.get?_of_mem hn he

end Attachment

/-! ## Files -/

/-- A widget stands below another one. -/
def Forest.Attached (ws : Forest Widget) (child parent : Text) : Prop :=
  ∃ t ∈ Forest.subtrees ws, t.label.identifier = .text parent ∧
    ∃ c ∈ t.children, c.label.identifier = .text child

/-- **The resolution of references.** A widget stands below another one exactly if its reference, as
the last creation writes it, names the other one, that one is created, and no circle of references
ends here. So each circle is cut at one place. A root keeps its reference if that is no
placeholder. -/
structure IsResolved (placeholders : Value) (fs : List Fact) (ws : Forest Widget) : Prop where
  attached : ∀ child parent, Forest.Attached ws child parent ↔
    Fact.Refers fs child parent ∧ ¬ EndsCircle (Fact.Refers fs) (Fact.createdIn fs) child
  cut : ∀ id, OnOneCircle (Fact.Refers fs) id id →
    ∃! x, OnOneCircle (Fact.Refers fs) id x ∧ ∀ parent, ¬ Forest.Attached ws x parent
  roots : ∀ t ∈ ws, ∃ id reference, t.label.identifier = .text id ∧
    Fact.lastParent? fs id = some reference ∧
      t.label.parent = ParsedFile.rootParent placeholders reference

theorem names_ofFacts (fs : List Fact) :
    Attachment.Names (Collection.ofFacts fs).entries = Fact.Refers fs := by
  funext child parent
  exact propext (Collection.above_ofFacts fs child parent)

/-- A circle has an end. -/
theorem exists_endsCircle {fs : List Fact} {id : Text} (h : OnOneCircle (Fact.Refers fs) id id) :
    ∃ x, OnOneCircle (Fact.Refers fs) id x ∧
      EndsCircle (Fact.Refers fs) (Fact.createdIn fs) x := by
  classical
  let circle := (Fact.createdIn fs).toFinset.filter (OnOneCircle (Fact.Refers fs) id)
  have hmem : ∀ x, x ∈ circle ↔ OnOneCircle (Fact.Refers fs) id x := by
    intro x
    rw [Finset.mem_filter, List.mem_toFinset, and_iff_right_iff_imp]
    intro hx
    obtain ⟨y, -, hyx⟩ := Relation.TransGen.tail'_iff.1 hx.1
    exact hyx.2
  obtain ⟨x, hx, hlast⟩ := circle.exists_max_image (Fact.createdIn fs).idxOf ⟨id, (hmem id).2 h⟩
  rw [hmem] at hx
  exact ⟨x, hx, hx.symm.trans hx, fun y hy => hlast y ((hmem y).2 (hx.trans hy))⟩

namespace ParsedFile

theorem rootParent_texts (names : List Text) (reference : Text) :
    rootParent (.texts names) (.text reference) =
      if reference = [] ∨ reference ∈ names then .null else .text reference := by
  have hholds : (Value.texts names).holds (.text reference) = .ok (decide (reference ∈ names)) := by
    have hequal : ∀ t, Value.equal (.text reference) (.text t) = decide (reference = t) :=
      fun t => by rw [Value.equal]
    rw [Value.texts, Value.holds]
    simp [hequal, List.any_eq]
  unfold rootParent Attachment.isPlaceholder Attachment.placeholder?
  rw [hholds]
  cases reference <;> simp [Value.isTrue, Except.toOption]

section Facts

variable (placeholders file : Value) (fs : List Fact)

theorem attached_ofFacts (child parent : Text) :
    Forest.Attached (ofFacts placeholders file fs).widgets child parent ↔
      ∃ s ∈ Forest.subtrees (Attachment.forest (Collection.ofFacts fs).entries),
        s.label = parent ∧ child ∈ s.children.map Tree.label := by
  constructor
  · rintro ⟨t, ht, hparent, c, hc, hchild⟩
    obtain ⟨s, hs, p, rfl⟩ := mem_subtrees_map_dressTree _ _ ht
    rw [children_dressTree, List.mem_map] at hc
    obtain ⟨u, hu, rfl⟩ := hc
    rw [label_dressTree, identifier_widget] at hparent hchild
    cases hparent
    cases hchild
    exact ⟨s, hs, rfl, List.mem_map_of_mem hu⟩
  · rintro ⟨s, hs, rfl, hchild⟩
    obtain ⟨u, hu, rfl⟩ := List.mem_map.1 hchild
    obtain ⟨t, ht, hst⟩ := List.mem_flatMap.1 (Forest.subtrees_eq_flatMap _ ▸ hs)
    obtain ⟨p, hp⟩ := exists_mem_subtrees_dressTree file (Collection.ofFacts fs).entries t
      (rootParent placeholders
        (((Collection.ofFacts fs).entries.get? t.label).elim .null Entry.parent)) hst
    refine ⟨_, Forest.mem_subtrees_of_mem (List.mem_map_of_mem ht) hp, ?_, ?_⟩
    · rw [label_dressTree, identifier_widget]
    · rw [children_dressTree]
      exact ⟨_, List.mem_map_of_mem hu, by rw [label_dressTree, identifier_widget]⟩

/-- A widget is attached as its reference says, unless it ends a circle. -/
theorem attached_iff (child parent : Text) :
    Forest.Attached (ofFacts placeholders file fs).widgets child parent ↔
      Fact.Refers fs child parent ∧ ¬ EndsCircle (Fact.Refers fs) (Fact.createdIn fs) child := by
  have hn := Collection.nodup_keys_entries fs
  have hresolved := Attachment.resolved_forest hn
  rw [attached_ofFacts, ← names_ofFacts, ← Collection.keys_entries_ofFacts]
  constructor
  · rintro ⟨s, hs, rfl, hchild⟩
    obtain ⟨c, hc, rfl⟩ := List.mem_map.1 hchild
    exact hresolved.child s hs c hc
  · rintro ⟨hnames, hends⟩
    obtain ⟨hchild, hparent⟩ := Attachment.mem_keys_of_names hnames
    have hmem := hresolved.ordered.perm.symm.subset hparent
    rw [← Forest.map_label_subtrees] at hmem
    obtain ⟨s, hs, hlabel⟩ := List.mem_map.1 hmem
    exact ⟨s, hs, hlabel, hresolved.mem_children hn hchild hnames hends hs hlabel⟩

theorem isResolved_ofFacts : IsResolved placeholders fs (ofFacts placeholders file fs).widgets where
  attached := attached_iff placeholders file fs
  cut id hid := by
    -- On a circle every reference names a created identifier, so who is not attached ends it.
    have hfree : ∀ x, OnOneCircle (Fact.Refers fs) id x →
        ((∀ parent, ¬ Forest.Attached (ofFacts placeholders file fs).widgets x parent) ↔
          EndsCircle (Fact.Refers fs) (Fact.createdIn fs) x) := by
      intro x hx
      obtain ⟨y, hxy, -⟩ := Relation.TransGen.head'_iff.1 hx.2
      simp only [attached_iff, not_and, not_not]
      exact ⟨fun h => h y hxy, fun hends _ _ => hends⟩
    obtain ⟨x, hx, hends⟩ := exists_endsCircle hid
    refine ⟨x, ⟨hx, (hfree x hx).2 hends⟩, fun y hy => ?_⟩
    have hmem : y ∈ Fact.createdIn fs := by
      obtain ⟨z, -, hzy⟩ := Relation.TransGen.tail'_iff.1 hy.1.1
      exact hzy.2
    exact ((hfree y hy.1).1 hy.2).unique hends (hy.1.symm.trans hx) hmem
  roots t ht := by
    obtain ⟨u, hu, rfl⟩ := List.mem_map.1 ht
    have hmem : u.label ∈ (Collection.ofFacts fs).entries.keys :=
      (Attachment.ordered_forest (Collection.nodup_keys_entries fs)).roots.subset
        (List.mem_map_of_mem hu)
    obtain ⟨e, he⟩ := Table.exists_get? hmem
    refine ⟨u.label, e.parent, ?_, ?_, ?_⟩
    · rw [label_dressTree, identifier_widget]
    · rw [← Collection.parent_ofFacts_get?, he, Option.map_some]
    · rw [label_dressTree, parent_widget _ _ hmem, he, Option.elim_some]

end Facts

/-- **References are followed exactly**, whatever the facts say: a widget stands below the one that
its reference names if that one is created, and only the last one created of a circle does not. With
texts for parents and for placeholders the file is always built, and a root has its reference as its
parent unless that is empty or a placeholder. -/
theorem build_resolved (file : Value) (fs : List Fact) :
    (∀ placeholders p, build placeholders file fs = .ok p →
      IsResolved placeholders fs p.widgets) ∧
    ((∀ f ∈ fs, f.HasTextParent) → ∀ names, ∃ p, build (.texts names) file fs = .ok p ∧
      IsResolved (.texts names) fs p.widgets ∧
        ∀ t ∈ p.widgets, ∃ id reference, t.label.identifier = .text id ∧
          Fact.lastParent? fs id = some (.text reference) ∧
            t.label.parent =
              if reference = [] ∨ reference ∈ names then .null else .text reference) := by
  refine ⟨fun placeholders p hp => ?_, fun hparents names => ?_⟩
  · obtain ⟨rfl, -⟩ := build_eq_ok.1 hp
    exact isResolved_ofFacts placeholders file fs
  · have htexts := Collection.parent_ofFacts hparents
    have hresolved := isResolved_ofFacts (.texts names) file fs
    refine ⟨_, build_eq_ok.2 ⟨rfl, Attachment.fault?_texts names _ htexts _⟩, hresolved,
      fun t ht => ?_⟩
    obtain ⟨id, reference, hid, hlast, hparent⟩ := hresolved.roots t ht
    have hentry := Collection.parent_ofFacts_get? fs id
    rw [hlast, Option.map_eq_some_iff] at hentry
    obtain ⟨e, he, rfl⟩ := hentry
    obtain ⟨reference, hreference⟩ := htexts _ (Table.mem_of_get? he)
    rw [hreference] at hlast hparent
    exact ⟨id, reference, hid, hlast, hparent.trans (rootParent_texts names reference)⟩

/-- Two widgets that name each other, another one that names the first of them, and one that names
what is not created. -/
def circular : List Fact :=
  let created (line : Int) (id parent : Text) : Fact :=
    { identifier := id, line := .integer line
      assertion := .created (.text "container") [] (.text parent) }
  [created 1 "a" "b", created 2 "b" "a", created 3 "c" "a", created 4 "d" "nowhere"]

theorem build_resolved_circular :
    ∃ p, build Attachment.defaultPlaceholders .null circular = .ok p ∧
      IsResolved Attachment.defaultPlaceholders circular p.widgets ∧
        Forest.Attached p.widgets "a" "b" ∧ Forest.Attached p.widgets "c" "a" ∧
          ∀ parent, ¬ Forest.Attached p.widgets "b" parent := by
  obtain ⟨hall, htexts⟩ := build_resolved .null circular
  obtain ⟨p, hp, -, -⟩ := htexts (by simp [circular, Fact.HasTextParent]) ["parent"]
  have hresolved := hall Attachment.defaultPlaceholders p hp
  have hab : Fact.Refers circular "a" "b" := ⟨rfl, by decide⟩
  have hba : Fact.Refers circular "b" "a" := ⟨rfl, by decide⟩
  have hca : Fact.Refers circular "c" "a" := ⟨rfl, by decide⟩
  have hcircle : OnOneCircle (Fact.Refers circular) "a" "b" := ⟨.single hab, .single hba⟩
  -- From the two only the two are reached.
  have hreached : ∀ x y, Relation.TransGen (Fact.Refers circular) x y → x = "a" ∨ x = "b" →
      y = "a" ∨ y = "b" := by
    have hstep : ∀ x y, Fact.Refers circular x y → x = "a" ∨ x = "b" → y = "a" ∨ y = "b" := by
      rintro x y ⟨hlast, -⟩ (rfl | rfl)
      · cases hlast
        exact .inr rfl
      · cases hlast
        exact .inl rfl
    intro x y h hx
    induction h with
    | single hxy => exact hstep x _ hxy hx
    | tail _ hyz ih => exact hstep _ _ hyz ih
  have hends : EndsCircle (Fact.Refers circular) (Fact.createdIn circular) "b" := by
    refine ⟨hcircle.symm.trans hcircle, fun x hx => ?_⟩
    rcases hreached _ _ hx.1 (.inr rfl) with rfl | rfl <;> decide
  have hopen : ¬ EndsCircle (Fact.Refers circular) (Fact.createdIn circular) "a" :=
    fun h => absurd (h.2 "b" hcircle) (by decide)
  have htail : ¬ EndsCircle (Fact.Refers circular) (Fact.createdIn circular) "c" := by
    intro h
    obtain ⟨y, hcy, hyc⟩ := Relation.TransGen.head'_iff.1 h.1.1
    obtain rfl : y = "a" := Value.text.inj (Option.some.inj (hcy.1.symm.trans hca.1))
    rcases Relation.reflTransGen_iff_eq_or_transGen.1 hyc with heq | hyc
    · exact absurd heq (by decide)
    · exact absurd (hreached _ _ hyc (.inl rfl)) (by decide)
  refine ⟨p, hp, hresolved, (hresolved.attached _ _).2 ⟨hab, hopen⟩,
    (hresolved.attached _ _).2 ⟨hca, htail⟩, fun parent h => ?_⟩
  exact ((hresolved.attached _ _).1 h).2 hends

end ParsedFile

end LvglForest
