import LvglForest.Proofs.Forest.Reordering
import LvglForest.Proofs.Hierarchy.Links
import LvglForest.Proofs.Hierarchy.ParsedFile
import Mathlib.Logic.Relation

/-!
# The order of facts

What a collection holds of an identifier depends on the facts about this identifier alone
(`Collection.view_ofFacts`), so facts of different identifiers may come in any order.

The identifiers are hung in the order of first creation, which other orders of facts change. But as
long as no references run in a circle, every identifier whose reference names a created one is hung
there when it has its turn (`Attachment.Turned.exists_movable`), so the forest follows the
references (`Attachment.follows_forest`), and these are the same. Facts in another order therefore
build the same file up to the order of roots and siblings (`ParsedFile.build_reordered`).
-/

namespace LvglForest

/-! ## The facts of one identifier -/

namespace Fact

/-- The facts about an identifier, in order. -/
def about (id : Text) (fs : List Fact) : List Fact := fs.filter (·.identifier = id)

theorem about_concat (fs : List Fact) (f : Fact) :
    about f.identifier (fs ++ [f]) = about f.identifier fs ++ [f] := by
  rw [about, List.filter_append, List.filter_cons_of_pos (by simp), List.filter_nil, about]

theorem about_concat_of_ne {id : Text} {f : Fact} (h : f.identifier ≠ id) (fs : List Fact) :
    about id (fs ++ [f]) = about id fs := by
  rw [about, List.filter_append, List.filter_cons_of_neg (by simpa using h), List.filter_nil,
    List.append_nil, about]

/-- The parent that a fact gives, if it is a creation. -/
def parent? (f : Fact) : Option Value :=
  match f.assertion with
  | .created _ _ parent => some parent
  | _ => none

/-- The parent that the last creation of an identifier gives. -/
def lastParent? (fs : List Fact) (id : Text) : Option Value :=
  ((about id fs).filterMap parent?).getLast?

end Fact

namespace Collection

/-- What a collection holds of an identifier. -/
def view (id : Text) (c : Collection) : Option Entry × Option Value :=
  (c.entries.get? id, c.declared.get? id)

theorem view_add_of_ne {id : Text} {f : Fact} (h : f.identifier ≠ id) (c : Collection) :
    (c.add f).view id = c.view id := by
  unfold add view
  split
  · split
    · rfl
    · rw [Table.get?_put, if_neg h]
  · split
    · rw [Table.get?_adjust, if_neg h]
    · rw [Table.get?_put, if_neg h]
  · rw [Table.get?_adjust, if_neg h]

theorem view_add_congr {f : Fact} {c c' : Collection}
    (h : c.view f.identifier = c'.view f.identifier) :
    (c.add f).view f.identifier = (c'.add f).view f.identifier := by
  obtain ⟨hentry, hdeclared⟩ := Prod.mk.inj h
  have hhas : c.entries.has f.identifier = c'.entries.has f.identifier := by
    rw [Table.has, Table.has, hentry]
  unfold add view
  rw [hhas]
  split
  · split
    · rw [hentry, hdeclared]
    · rw [hentry, Table.get?_put, Table.get?_put, if_pos rfl, if_pos rfl]
  · split
    · rw [Table.get?_adjust, Table.get?_adjust, if_pos rfl, if_pos rfl, hentry, hdeclared]
    · rw [Table.get?_put, Table.get?_put, if_pos rfl, if_pos rfl, hdeclared]
  · rw [Table.get?_adjust, Table.get?_adjust, if_pos rfl, if_pos rfl, hentry, hdeclared]

/-- **Each identifier is collected on its own.** -/
theorem view_ofFacts (fs : List Fact) (id : Text) :
    (ofFacts fs).view id = (ofFacts (Fact.about id fs)).view id := by
  induction fs using List.reverseRecOn with
  | nil => rfl
  | append_singleton fs f ih =>
    rw [ofFacts_concat]
    by_cases h : f.identifier = id
    · subst h
      rw [Fact.about_concat, ofFacts_concat]
      exact view_add_congr ih
    · rw [Fact.about_concat_of_ne h, view_add_of_ne h, ih]

theorem parent_add (c : Collection) (f : Fact) :
    ((c.add f).entries.get? f.identifier).map Entry.parent =
      f.parent?.or ((c.entries.get? f.identifier).map Entry.parent) := by
  obtain ⟨id, line, a⟩ := f
  have hkept : ∀ g : Entry → Entry, (∀ e, (g e).parent = e.parent) →
      ((c.entries.adjust id g).get? id).map Entry.parent =
        (c.entries.get? id).map Entry.parent := by
    intro g hg
    rw [Table.get?_adjust, if_pos rfl, Option.map_map]
    exact congrArg (Option.map · _) (funext hg)
  cases a with
  | created kind sourceName parent =>
    simp only [add, Fact.parent?, Option.some_or]
    split
    · next h =>
      obtain ⟨e, he⟩ := Table.exists_get? (Table.has_iff_mem_keys.1 h)
      rw [Table.get?_adjust, if_pos rfl, he]
      rfl
    · rw [Table.get?_put, if_pos rfl]
      rfl
  | declared type =>
    simp only [add, Fact.parent?, Option.none_or]
    split <;> rfl
  | _ => exact hkept _ fun _ => rfl

/-- The parent of an entry is the one of the last creation. -/
theorem parent_ofFacts_get? (fs : List Fact) (id : Text) :
    ((ofFacts fs).entries.get? id).map Entry.parent = Fact.lastParent? fs id := by
  induction fs using List.reverseRecOn with
  | nil => rfl
  | append_singleton fs f ih =>
    rw [ofFacts_concat, Fact.lastParent?]
    by_cases h : f.identifier = id
    · subst h
      rw [parent_add, ih, Fact.lastParent?, Fact.about_concat, List.filterMap_append,
        List.getLast?_append]
      cases hparent : f.parent? <;> simp [hparent]
    · rw [Fact.about_concat_of_ne h]
      exact (congrArg (·.1.map Entry.parent) (view_add_of_ne h (ofFacts fs))).trans ih

/-- The declarations of a file by identifier. -/
theorem get?_declarations (c : Collection) (id : Text) :
    c.declarations.get? id =
      (c.declared.get? id).map fun type => (c.entries.get? id).elim type Entry.kind := by
  unfold declarations
  induction c.declared with
  | nil => rfl
  | cons d ds ih =>
    obtain ⟨k, type⟩ := d
    rw [List.map_cons, Table.get?, Table.get?, ih]
    split
    · next hk => rw [hk]; rfl
    · rfl

end Collection

/-! ## References that run in no circle -/

namespace Attachment

/-- The created identifier that the reference of an identifier names. -/
def above (entries : Table Entry) (id : Text) : Option Text :=
  match (entries.get? id).map Entry.parent with
  | some (.text parent) => if entries.has parent then some parent else none
  | _ => none

/-- No identifier is reached from itself by references. -/
def Acyclic (entries : Table Entry) : Prop :=
  ∀ id, ¬ Relation.TransGen (fun child parent => above entries child = some parent) id id

variable {entries : Table Entry} {done : List Text} {ts : Forest Text} {id : Text} {e : Entry}

theorem above_of_get? (he : entries.get? id = some e) {parent : Text}
    (h : e.parent = .text parent) :
    above entries id = if parent ∈ entries.keys then some parent else none := by
  rw [above, he, Option.map_some, h]
  simp only [← Table.has_iff_mem_keys]

theorem above_eq_some (he : entries.get? id = some e) {parent : Text}
    (h : above entries id = some parent) :
    e.parent = .text parent ∧ parent ∈ entries.keys := by
  rw [above, he, Option.map_some] at h
  split at h
  · next p hp =>
    split at h
    · next hhas =>
      cases h
      exact ⟨Option.some.inj hp, Table.has_iff_mem_keys.1 hhas⟩
    · cases h
  · cases h

/-- An identifier whose reference names no created one stays where it is when it has its turn. -/
theorem attach_of_above_eq_none (he : entries.get? id = some e) (h : above entries id = none) :
    attach entries ts id e.parent = ts := by
  unfold attach
  split
  · next parent hreference =>
    rw [above_of_get? he hreference] at h
    have hparent : parent ∉ entries.keys := fun hmem => by
      rw [if_pos hmem] at h
      cases h
    exact hang_of_not_mem hparent ts id
  · rfl

/-- **The invariant of turns without circles.** Every child stands below what its reference names,
who has not had a turn is a root, and who has had one is a root only if the reference names no
created identifier. -/
structure Turned (entries : Table Entry) (done : List Text) (ts : Forest Text) : Prop where
  ordered : Ordered entries.keys done ts
  child : ∀ t ∈ Forest.subtrees ts, ∀ c ∈ t.children, above entries c.label = some t.label
  pending : ∀ id ∈ entries.keys, id ∉ done → id ∈ ts.map Tree.label
  settled : ∀ id ∈ done, above entries id ≠ none → id ∉ ts.map Tree.label

namespace Turned

theorem seeds (entries : Table Entry) : Turned entries [] (seeds entries) where
  ordered := ordered_seeds entries
  child t ht c hc := by
    rw [children_of_mem_subtrees_seeds ht] at hc
    cases hc
  pending id hid _ := by
    rw [labels_seeds]
    exact hid
  settled id hid := absurd hid List.not_mem_nil

end Turned

/-- Hanging an identifier keeps what holds of every child and what it stands below, if it holds of
the identifier too. -/
theorem child_graft {R : Text → Text → Prop}
    (h : ∀ t ∈ Forest.subtrees ts, ∀ c ∈ t.children, R c.label t.label)
    {parent : Text} {tree : Tree Text} (htree : Forest.rooted? id ts = some tree)
    (hnew : R id parent) :
    ∀ t ∈ Forest.subtrees (Forest.graft parent tree (Forest.without id ts)), ∀ c ∈ t.children,
      R c.label t.label := by
  intro t ht c hc
  rcases Forest.mem_subtrees_graft parent tree _ ht with ⟨s, hs, rfl⟩ | hin
  · have hmem : c.label ∈ (Tree.graft parent tree s).children.map Tree.label :=
      List.mem_map_of_mem hc
    rw [Tree.labels_children_graft, List.mem_append] at hmem
    rw [Tree.label_graft]
    rcases hmem with hmem | hmem
    · obtain ⟨c', hc', heq⟩ := List.mem_map.1 hmem
      rw [← heq]
      exact h s (Forest.subtrees_without_subset id ts hs) c' hc'
    · split at hmem
      · next hs =>
        rw [List.mem_singleton.1 hmem, Forest.label_of_rooted? htree, hs]
        exact hnew
      · cases hmem
  · exact h t (Forest.mem_subtrees_of_mem (List.mem_of_find?_eq_some htree) hin) c hc

/-- What is below a label leads up to it. -/
theorem reaches_of_mem {ts : Forest Text}
    (h : ∀ t ∈ Forest.subtrees ts, ∀ c ∈ t.children, above entries c.label = some t.label)
    (t : Tree Text) (ht : t ∈ Forest.subtrees ts) {x : Text} (hx : x ∈ t.toList) :
    Relation.ReflTransGen (fun child parent => above entries child = some parent) x t.label := by
  induction t using Tree.ind with
  | node a us ih =>
    rw [Tree.toList, List.mem_cons, Forest.toList_eq_flatMap, List.mem_flatMap] at hx
    rcases hx with rfl | ⟨u, hu, hx⟩
    · exact .refl
    · have hchild := h _ ht u hu
      exact (ih u hu (Forest.mem_subtrees_of_child hu ts ht) hx).tail hchild

namespace Turned

variable (h : Turned entries done ts)
include h

/-- An identifier that has its turn can be hung if its reference names a created one. -/
theorem exists_movable (hacyclic : Acyclic entries) (hid : id ∈ entries.keys) (hdone : id ∉ done)
    {parent : Text} (hparent : parent ∈ entries.keys) (habove : above entries id = some parent) :
    ∃ tree, movable? entries ts id parent = some tree := by
  obtain ⟨tree, hroot⟩ := Forest.exists_rooted? (h.pending id hid hdone)
  have hout : parent ∉ tree.toList := by
    intro hmem
    have htree : tree ∈ Forest.subtrees ts :=
      Forest.mem_subtrees_of_mem (List.mem_of_find?_eq_some hroot) (Tree.mem_subtrees_self tree)
    have hup := reaches_of_mem h.child tree htree hmem
    rw [Forest.label_of_rooted? hroot] at hup
    exact hacyclic id (.head' habove hup)
  refine ⟨tree, ?_⟩
  unfold movable?
  rw [hroot]
  simp [Table.has_iff_mem_keys.2 hparent, hout]

/-- An identifier whose reference names no created one stays where it is. -/
theorem stay (hnone : above entries id = none) : Turned entries (done ++ [id]) ts where
  ordered := h.ordered.mono (List.sublist_append_left _ _)
  child := h.child
  pending x hx hdone := h.pending x hx fun hmem => hdone (List.mem_append_left _ hmem)
  settled x hx habove := by
    rcases List.mem_append.1 hx with hx | hx
    · exact h.settled x hx habove
    · rw [List.mem_singleton.1 hx] at habove
      exact absurd hnone habove

/-- Any other identifier is hung below what its reference names. -/
theorem graft (hn : entries.keys.Nodup) {parent : Text} {tree : Tree Text}
    (hmovable : movable? entries ts id parent = some tree)
    (habove : above entries id = some parent) :
    Turned entries (done ++ [id]) (Forest.graft parent tree (Forest.without id ts)) := by
  obtain ⟨htree, hparent, hout⟩ := movable?_eq_some hmovable
  refine ⟨h.ordered.graft hn htree hparent hout,
    child_graft (R := fun c p => above entries c = some p) h.child htree habove,
    fun x hx hdone => ?_, fun x hx hx' => ?_⟩
  · rw [List.mem_append, List.mem_singleton, not_or] at hdone
    rw [Forest.labels_graft, Forest.mem_labels_without]
    exact ⟨h.pending x hx hdone.1, hdone.2⟩
  · rw [Forest.labels_graft, Forest.mem_labels_without, not_and, not_not]
    rcases List.mem_append.1 hx with hx | hx
    · exact fun hmem => absurd hmem (h.settled x hx hx')
    · exact fun _ => List.mem_singleton.1 hx

/-- One turn keeps the invariant. -/
theorem attach (hn : entries.keys.Nodup) (hacyclic : Acyclic entries)
    (he : entries.get? id = some e) (hdone : id ∉ done) :
    Turned entries (done ++ [id]) (attach entries ts id e.parent) := by
  have hid : id ∈ entries.keys := Table.has_iff_mem_keys.1 (by rw [Table.has, he]; rfl)
  cases habove : above entries id with
  | some parent =>
    obtain ⟨hreference, hparent⟩ := above_eq_some he habove
    obtain ⟨tree, hmovable⟩ := h.exists_movable hacyclic hid hdone hparent habove
    rw [hreference, Attachment.attach]
    simp only [hmovable]
    exact h.graft hn hmovable habove
  | none =>
    rw [attach_of_above_eq_none he habove]
    exact h.stay habove

/-- So does a run of turns. -/
theorem attachAll (hn : entries.keys.Nodup) (hacyclic : Acyclic entries)
    {rest : List (Text × Entry)} (hrest : ∀ e ∈ rest, entries.get? e.1 = some e.2)
    (hnodup : (done ++ rest.map (·.1)).Nodup) :
    Turned entries (done ++ rest.map (·.1)) (attachAll entries ts rest) := by
  induction rest generalizing done ts with
  | nil => simpa [Attachment.attachAll] using h
  | cons e rest ih =>
    obtain ⟨id, e⟩ := e
    rw [List.forall_mem_cons] at hrest
    have hdone : id ∉ done := fun hmem =>
      (List.nodup_append.1 hnodup).2.2 id hmem id List.mem_cons_self rfl
    have hsplit : done ++ ((id, e) :: rest).map (·.1) = done ++ [id] ++ rest.map (·.1) := by
      rw [List.append_assoc]
      rfl
    rw [hsplit] at hnodup ⊢
    exact ih (h.attach hn hacyclic hrest.1 hdone) hrest.2 hnodup

end Turned

/-- **Without circles the forest follows the references.** -/
theorem follows_forest (hn : entries.keys.Nodup) (hacyclic : Acyclic entries) :
    Forest.Follows (above entries) (forest entries) := by
  have hentries : ∀ e ∈ entries, entries.get? e.1 = some e.2 := fun e he => Table.get?_of_mem hn he
  have hrun : Turned entries entries.keys (forest entries) :=
    (Turned.seeds entries).attachAll hn hacyclic hentries hn
  refine ⟨hrun.ordered.perm.nodup_iff.2 hn, fun t ht => ?_, hrun.child⟩
  have hroot : t.label ∈ (forest entries).map Tree.label := List.mem_map_of_mem ht
  by_contra habove
  exact hrun.settled t.label (hrun.ordered.roots.subset hroot) habove hroot

/-! ## Faults -/

/-- No fault comes of an entry: its reference can be looked up, and can be compared with the
placeholders if it names no created identifier. -/
def Settles (placeholders : Value) (entries : Table Entry) (id : Text) (e : Entry) : Prop :=
  (∃ u, e.parent.checkHashable = .ok u) ∧
    (above entries id = none → ∃ b, placeholder? placeholders e.parent = .ok b)

theorem isMovable_iff (h : Turned entries done ts) (hacyclic : Acyclic entries)
    (he : entries.get? id = some e) (hdone : id ∉ done) :
    isMovable entries ts id e.parent = true ↔ above entries id ≠ none := by
  have hid : id ∈ entries.keys := Table.has_iff_mem_keys.1 (by rw [Table.has, he]; rfl)
  constructor
  · intro hmovable hnone
    unfold isMovable at hmovable
    split at hmovable
    · next parent hreference =>
      obtain ⟨tree, htree⟩ := Option.isSome_iff_exists.1 hmovable
      obtain ⟨-, hparent, -⟩ := movable?_eq_some htree
      rw [above_of_get? he hreference, if_pos hparent] at hnone
      cases hnone
    · cases hmovable
  · intro habove
    obtain ⟨parent, hparent⟩ := Option.ne_none_iff_exists'.1 habove
    obtain ⟨hreference, hcreated⟩ := above_eq_some he hparent
    obtain ⟨tree, htree⟩ := h.exists_movable hacyclic hid hdone hcreated hparent
    rw [hreference, isMovable, htree]
    rfl

theorem exists_standing_iff (placeholders : Value) (h : Turned entries done ts)
    (hacyclic : Acyclic entries) (he : entries.get? id = some e) (hdone : id ∉ done) :
    (∃ s, standing placeholders entries ts id e.parent = .ok s) ↔
      Settles placeholders entries id e := by
  have hmovable := isMovable_iff h hacyclic he hdone
  unfold standing Settles
  cases e.parent.checkHashable with
  | error f => simp [bind, Except.bind]
  | ok u =>
    by_cases habove : above entries id = none
    · have hstays : isMovable entries ts id e.parent = false :=
        Bool.eq_false_iff.2 fun h => hmovable.1 h habove
      cases placeholder? placeholders e.parent <;>
        simp [bind, Except.bind, pure, Except.pure, hstays, habove]
    · simp [bind, Except.bind, pure, Except.pure, hmovable.2 habove, habove]

/-- Whether a fault ends the turns does not depend on their order. -/
theorem fault?_eq_none_iff (placeholders : Value) (h : Turned entries done ts)
    (hn : entries.keys.Nodup) (hacyclic : Acyclic entries) {rest : List (Text × Entry)}
    (hrest : ∀ e ∈ rest, entries.get? e.1 = some e.2) (hnodup : (done ++ rest.map (·.1)).Nodup) :
    fault? placeholders entries ts rest = none ↔
      ∀ e ∈ rest, Settles placeholders entries e.1 e.2 := by
  induction rest generalizing done ts with
  | nil => exact ⟨fun _ _ he => absurd he List.not_mem_nil, fun _ => rfl⟩
  | cons e rest ih =>
    obtain ⟨id, e⟩ := e
    rw [List.forall_mem_cons] at hrest
    have hdone : id ∉ done := fun hmem =>
      (List.nodup_append.1 hnodup).2.2 id hmem id List.mem_cons_self rfl
    have hsplit : done ++ ((id, e) :: rest).map (·.1) = done ++ [id] ++ rest.map (·.1) := by
      rw [List.append_assoc]
      rfl
    rw [hsplit] at hnodup
    rw [List.forall_mem_cons, ← exists_standing_iff placeholders h hacyclic hrest.1 hdone,
      ← ih (h.attach hn hacyclic hrest.1 hdone) hrest.2 hnodup, fault?]
    cases standing placeholders entries ts id e.parent <;> simp

/-! ## Tables with the same entries -/

section Same

variable {entries' : Table Entry} (hsame : ∀ id, entries.get? id = entries'.get? id)
include hsame

theorem has_same (id : Text) : entries.has id = entries'.has id := by
  rw [Table.has, Table.has, hsame]

theorem perm_keys_same (hn : entries.keys.Nodup) (hn' : entries'.keys.Nodup) :
    entries.keys.Perm entries'.keys := by
  refine (List.perm_ext_iff_of_nodup hn hn').2 fun id => ?_
  rw [← Table.has_iff_mem_keys, ← Table.has_iff_mem_keys, has_same hsame]

theorem above_same : above entries = above entries' := by
  funext id
  rw [above, above, hsame]
  simp only [has_same hsame]

theorem acyclic_same (h : Acyclic entries) : Acyclic entries' := by
  unfold Acyclic at h ⊢
  rwa [above_same hsame] at h

/-- **The forests of the same entries** differ in the order of roots and siblings only. -/
theorem reordered_forest (hn : entries.keys.Nodup) (hn' : entries'.keys.Nodup)
    (hacyclic : Acyclic entries) : Forest.Reordered (forest entries) (forest entries') := by
  have hfollows := follows_forest hn' (acyclic_same hsame hacyclic)
  rw [← above_same hsame] at hfollows
  refine (follows_forest hn hacyclic).reordered hfollows ?_
  exact (ordered_forest hn).perm.trans
    ((perm_keys_same hsame hn hn').trans (ordered_forest hn').perm.symm)

theorem fault?_same (placeholders : Value) (hn : entries.keys.Nodup) (hn' : entries'.keys.Nodup)
    (hacyclic : Acyclic entries) (h : fault? placeholders entries (seeds entries) entries = none) :
    fault? placeholders entries' (seeds entries') entries' = none := by
  rw [fault?_eq_none_iff placeholders (.seeds entries) hn hacyclic
    (fun e he => Table.get?_of_mem hn he) hn] at h
  rw [fault?_eq_none_iff placeholders (.seeds entries') hn' (acyclic_same hsame hacyclic)
    (fun e he => Table.get?_of_mem hn' he) hn']
  rintro ⟨id, e⟩ he
  have hmem : (id, e) ∈ entries :=
    Table.mem_of_get? ((hsame id).trans (Table.get?_of_mem hn' he))
  have hsettles := h _ hmem
  rwa [Settles, above_same hsame] at hsettles

end Same

end Attachment

namespace ParsedFile

/-! ## Dressing -/

theorem dressTree_same {entries entries' : Table Entry}
    (hsame : ∀ id, entries.get? id = entries'.get? id) (file : Value) :
    dressTree file entries = dressTree file entries' := by
  have hwidget : widget file entries = widget file entries' := by
    funext id parent
    rw [widget, widget, hsame]
  funext parent t
  induction t using Tree.ind generalizing parent with
  | node a ts ih =>
    rw [dressTree, dressTree, dressChildren_eq_map, dressChildren_eq_map, hwidget]
    exact congrArg _ (List.map_congr_left fun t ht => ih t ht _)

/-- Trees in another order give widgets in another order. -/
theorem reordered_dressTree (file : Value) (entries : Table Entry) {ts us : Forest Text}
    (h : Forest.Reordered ts us) (parent : Text → Value) :
    Forest.Reordered (ts.map fun t => dressTree file entries (parent t.label) t)
      (us.map fun t => dressTree file entries (parent t.label) t) := by
  induction h generalizing parent with
  | nil => exact .nil
  | cons a _ _ ihbelow ihrest =>
    have hbelow := ihbelow fun _ => .text a
    rw [List.map_cons, List.map_cons, dressTree, dressTree, dressChildren_eq_map,
      dressChildren_eq_map]
    exact .cons _ hbelow (ihrest parent)
  | swap t u ts => exact .swap _ _ _
  | trans _ _ ih₁ ih₂ => exact (ih₁ parent).trans (ih₂ parent)

end ParsedFile

/-! ## Files -/

/-- The reference of an identifier, in its last creation, names a created identifier. -/
def Fact.Refers (fs : List Fact) (child parent : Text) : Prop :=
  Fact.lastParent? fs child = some (.text parent) ∧ parent ∈ Fact.createdIn fs

theorem Collection.above_ofFacts (fs : List Fact) (child parent : Text) :
    Attachment.above (ofFacts fs).entries child = some parent ↔ Fact.Refers fs child parent := by
  rw [Fact.Refers, ← parent_ofFacts_get?, ← keys_entries_ofFacts, ← Table.has_iff_mem_keys,
    Attachment.above]
  constructor
  · intro h
    split at h
    · next p hp =>
      split at h
      · next hhas =>
        cases h
        exact ⟨hp, hhas⟩
      · cases h
    · cases h
  · rintro ⟨hparent, hhas⟩
    rw [hparent]
    exact if_pos hhas

namespace ParsedFile

/-- Files that differ in the order of roots and siblings only: the trees are the same up to that
order, so all widgets are the same, and so are the declarations. -/
structure SameUpToOrder (p q : ParsedFile) : Prop where
  fileName : q.fileName = p.fileName
  widgets : Forest.Reordered p.widgets q.widgets
  all : (Forest.toList p.widgets).Perm (Forest.toList q.widgets)
  declarations : ∀ id, q.declarations.get? id = p.declarations.get? id

theorem reordered_ofFacts {fs gs : List Fact} (placeholders fileName : Value)
    (hsame : ∀ id, (Collection.ofFacts fs).entries.get? id = (Collection.ofFacts gs).entries.get? id)
    (hacyclic : Attachment.Acyclic (Collection.ofFacts fs).entries) :
    Forest.Reordered (ofFacts placeholders fileName fs).widgets
      (ofFacts placeholders fileName gs).widgets := by
  have hforest := Attachment.reordered_forest hsame (Collection.nodup_keys_entries fs)
    (Collection.nodup_keys_entries gs) hacyclic
  have hdressed := reordered_dressTree fileName (Collection.ofFacts fs).entries hforest fun id =>
    rootParent placeholders (((Collection.ofFacts fs).entries.get? id).elim .null Entry.parent)
  have hwidgets : (ofFacts placeholders fileName gs).widgets =
      (Attachment.forest (Collection.ofFacts gs).entries).map fun t =>
        dressTree fileName (Collection.ofFacts fs).entries (rootParent placeholders
          (((Collection.ofFacts fs).entries.get? t.label).elim .null Entry.parent)) t := by
    simp only [dressTree_same hsame, hsame]
    rfl
  rw [hwidgets]
  exact hdressed

/-- **The order of facts does not matter** beyond the order of roots and siblings. Facts that say the
same of each identifier in the same order, and whose references run in no circle, build the same
file: every widget with the same properties below the same parent, and the same declarations. They
are built without fault if the references are texts, as those in source are. -/
theorem build_reordered {fs gs : List Fact} (hsame : ∀ id, Fact.about id fs = Fact.about id gs)
    (hacyclic : ∀ id, ¬ Relation.TransGen (Fact.Refers fs) id id) (placeholders fileName : Value) :
    (∀ p, build placeholders fileName fs = .ok p →
      ∃ q, build placeholders fileName gs = .ok q ∧ SameUpToOrder p q) ∧
    ∀ names, (∀ f ∈ fs, f.HasTextParent) → ∃ p, build (.texts names) fileName fs = .ok p := by
  have hview : ∀ id, (Collection.ofFacts fs).view id = (Collection.ofFacts gs).view id := by
    intro id
    rw [Collection.view_ofFacts, Collection.view_ofFacts gs, hsame]
  have hentries : ∀ id, (Collection.ofFacts fs).entries.get? id =
      (Collection.ofFacts gs).entries.get? id := fun id => congrArg Prod.fst (hview id)
  have hdeclared : ∀ id, (Collection.ofFacts fs).declared.get? id =
      (Collection.ofFacts gs).declared.get? id := fun id => congrArg Prod.snd (hview id)
  have hacyclic' : Attachment.Acyclic (Collection.ofFacts fs).entries := by
    intro id hcircle
    exact hacyclic id (Relation.TransGen.mono
      (fun child parent => (Collection.above_ofFacts fs child parent).1) id id hcircle)
  refine ⟨fun p hp => ?_, fun names h => ?_⟩
  · obtain ⟨rfl, hfault⟩ := build_eq_ok.1 hp
    have hwidgets := reordered_ofFacts placeholders fileName hentries hacyclic'
    refine ⟨_, build_eq_ok.2 ⟨rfl, ?_⟩, rfl, hwidgets, hwidgets.perm_toList, fun id => ?_⟩
    · exact Attachment.fault?_same hentries placeholders (Collection.nodup_keys_entries fs)
        (Collection.nodup_keys_entries gs) hacyclic' hfault
    · show (Collection.ofFacts gs).declarations.get? id = (Collection.ofFacts fs).declarations.get? id
      rw [Collection.get?_declarations, Collection.get?_declarations, hentries, hdeclared]
  · exact ⟨_, build_eq_ok.2 ⟨rfl, Attachment.fault?_texts names _ (Collection.parent_ofFacts h) _⟩⟩

/-- Facts about a panel and a button in it, where the panel comes first, and where the facts about
the button do. The button is created twice, and its first text comes before it is created. -/
def panelFirst : List Fact :=
  let created (kind parent : Text) : Assertion := .created (.text kind) [] (.text parent)
  [{ identifier := "panel", line := .integer 1, assertion := created "container" "parent" },
    { identifier := "button", line := .integer 2, assertion := .text (.text "lost") },
    { identifier := "button", line := .integer 3, assertion := created "button" "parent" },
    { identifier := "panel", line := .integer 4, assertion := .declared (.text "container") },
    { identifier := "button", line := .integer 5, assertion := created "button" "panel" }]

@[inherit_doc panelFirst]
def buttonFirst : List Fact :=
  let created (kind parent : Text) : Assertion := .created (.text kind) [] (.text parent)
  [{ identifier := "button", line := .integer 2, assertion := .text (.text "lost") },
    { identifier := "button", line := .integer 3, assertion := created "button" "parent" },
    { identifier := "panel", line := .integer 1, assertion := created "container" "parent" },
    { identifier := "button", line := .integer 5, assertion := created "button" "panel" },
    { identifier := "panel", line := .integer 4, assertion := .declared (.text "container") }]

theorem build_reordered_interleaved :
    ∃ p q, build Attachment.defaultPlaceholders .null panelFirst = .ok p ∧
      build Attachment.defaultPlaceholders .null buttonFirst = .ok q ∧ SameUpToOrder p q := by
  have hsame : ∀ id, Fact.about id panelFirst = Fact.about id buttonFirst := by
    intro id
    by_cases hpanel : "panel" = id
    · subst hpanel
      rfl
    · by_cases hbutton : "button" = id
      · subst hbutton
        rfl
      · simp [Fact.about, panelFirst, buttonFirst, hpanel, hbutton]
  have hrefers : ∀ child parent, Fact.Refers panelFirst child parent →
      child = "button" ∧ parent = "panel" := by
    rintro child parent ⟨hlast, hcreated⟩
    by_cases hpanel : "panel" = child
    · subst hpanel
      cases hlast
      exact absurd hcreated (by decide)
    · by_cases hbutton : "button" = child
      · subst hbutton
        cases hlast
        exact ⟨rfl, rfl⟩
      · simp [Fact.lastParent?, Fact.about, panelFirst, hpanel, hbutton] at hlast
  have hacyclic : ∀ id, ¬ Relation.TransGen (Fact.Refers panelFirst) id id := by
    intro id hcircle
    obtain ⟨b, hb, -⟩ := Relation.TransGen.head'_iff.1 hcircle
    obtain ⟨c, -, hc⟩ := Relation.TransGen.tail'_iff.1 hcircle
    have hid : ("button" : Text) = "panel" := (hrefers _ _ hb).1.symm.trans (hrefers _ _ hc).2
    exact absurd hid (by decide)
  obtain ⟨hbuilt, htexts⟩ := build_reordered hsame hacyclic Attachment.defaultPlaceholders .null
  obtain ⟨p, hp⟩ := htexts ["parent"] (by simp [panelFirst, Fact.HasTextParent])
  obtain ⟨q, hq, horder⟩ := hbuilt p hp
  exact ⟨p, q, hp, hq, horder⟩

end ParsedFile

end LvglForest
