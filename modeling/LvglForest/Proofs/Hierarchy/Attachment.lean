import LvglForest.Hierarchy.Attachment
import LvglForest.Proofs.Forest
import LvglForest.Proofs.Table

/-!
# Hanging identifiers keeps all of them

The invariant (`Attachment.Ordered`) relates a forest to all identifiers and to those whose turn
has come: every identifier is in the forest once, the roots come in the order of creation, and the
children of every node in the order in which they had their turn. One turn keeps it
(`Ordered.attach`), since the tree that is taken out and the trees that stay hold every identifier
once between them, and the parent lies in a tree that stays. So the whole run keeps it
(`Ordered.attachAll`), and at its end all identifiers had their turn in the order of creation
(`ordered_forest`).
-/

namespace LvglForest.Attachment

/-- **The attachment invariant.** -/
structure Ordered (ids done : List Text) (ts : Forest Text) : Prop where
  perm : (Forest.toList ts).Perm ids
  roots : (ts.map Tree.label).Sublist ids
  children : ∀ t ∈ Forest.subtrees ts, (t.children.map Tree.label).Sublist done

/-! ## The start -/

theorem toList_seeds (entries : Table Entry) : Forest.toList (seeds entries) = entries.keys := by
  rw [Forest.toList_eq_flatMap, seeds, List.flatMap_map]
  induction entries.keys with
  | nil => rfl
  | cons id ids ih => rw [List.flatMap_cons, ih]; rfl

theorem labels_seeds (entries : Table Entry) : (seeds entries).map Tree.label = entries.keys := by
  rw [seeds, List.map_map]
  exact List.map_id _

theorem children_of_mem_subtrees_seeds {entries : Table Entry} {t : Tree Text}
    (h : t ∈ Forest.subtrees (seeds entries)) : t.children = [] := by
  rw [Forest.subtrees_eq_flatMap, List.mem_flatMap] at h
  obtain ⟨s, hs, ht⟩ := h
  obtain ⟨id, _, rfl⟩ := List.mem_map.1 hs
  rw [Tree.subtrees, Forest.subtrees, List.mem_singleton] at ht
  rw [ht, Tree.children]

theorem ordered_seeds (entries : Table Entry) : Ordered entries.keys [] (seeds entries) where
  perm := by rw [toList_seeds]
  roots := by rw [labels_seeds]
  children t ht := by rw [children_of_mem_subtrees_seeds ht]; exact List.Sublist.refl _

/-! ## One turn -/

/-- What a tree that can be hung is, and where its parent lies. -/
theorem movable?_eq_some {entries : Table Entry} {ts : Forest Text} {id parent : Text}
    {tree : Tree Text} (h : movable? entries ts id parent = some tree) :
    Forest.rooted? id ts = some tree ∧ parent ∈ entries.keys ∧ parent ∉ tree.toList := by
  unfold movable? at h
  split at h
  · cases h
  · next t hroot =>
    split at h
    · next hcond =>
      cases h
      rw [Bool.and_eq_true, Table.has_iff_mem_keys, Bool.not_eq_true', List.contains_eq_mem,
        decide_eq_false_iff_not] at hcond
      exact ⟨hroot, hcond⟩
    · cases h

namespace Ordered

variable {ids done : List Text} {ts : Forest Text} (ho : Ordered ids done ts)
include ho

theorem nodup_roots (hn : ids.Nodup) : (ts.map Tree.label).Nodup := hn.sublist ho.roots

/-- The identifiers that have had their turn may be more than those that are children. -/
theorem mono {more : List Text} (h : done.Sublist more) : Ordered ids more ts where
  perm := ho.perm
  roots := ho.roots
  children t ht := (ho.children t ht).trans h

/-- Hanging the tree of an identifier below a node outside it. -/
theorem graft {id parent : Text} {tree : Tree Text} (hn : ids.Nodup)
    (htree : Forest.rooted? id ts = some tree) (hparent : parent ∈ ids)
    (hout : parent ∉ tree.toList) :
    Ordered ids (done ++ [id]) (Forest.graft parent tree (Forest.without id ts)) where
  perm := by
    have hsplit := Forest.perm_toList
      (Forest.perm_rooted?_without (ho.nodup_roots hn) htree)
    rw [Forest.toList] at hsplit
    have hone : (Forest.toList (Forest.without id ts)).count parent = 1 := by
      have hall := (hsplit.symm.trans ho.perm).count_eq parent
      rw [List.count_append, List.count_eq_zero.2 hout, Nat.zero_add,
        List.count_eq_one_of_mem hn hparent] at hall
      exact hall
    refine List.Perm.trans (List.perm_iff_count.2 fun x => ?_) (hsplit.symm.trans ho.perm)
    rw [Forest.count_toList_graft, hone, List.count_append, Nat.one_mul, Nat.add_comm]
  roots := by
    rw [Forest.labels_graft]
    exact ((Forest.without_sublist id ts).map _).trans ho.roots
  children t ht := by
    rcases Forest.mem_subtrees_graft parent tree _ ht with ⟨s, hs, rfl⟩ | hin
    · rw [Tree.labels_children_graft, Forest.label_of_rooted? htree]
      refine (ho.children s (Forest.subtrees_without_subset id ts hs)).append ?_
      split
      · exact List.Sublist.refl _
      · exact List.nil_sublist _
    · have hmem : tree ∈ ts := List.mem_of_find?_eq_some htree
      exact (ho.children t (Forest.mem_subtrees_of_mem hmem hin)).trans
        (List.sublist_append_left _ _)

/-- One turn keeps the invariant. -/
theorem attach {entries : Table Entry} (hids : ids = entries.keys) (hn : ids.Nodup) (id : Text)
    (reference : Value) : Ordered ids (done ++ [id]) (attach entries ts id reference) := by
  have hstay : Ordered ids (done ++ [id]) ts := ho.mono (List.sublist_append_left _ _)
  unfold Attachment.attach
  split
  · next parent =>
    split
    · next tree hmovable =>
      obtain ⟨htree, hparent, hout⟩ := movable?_eq_some hmovable
      exact ho.graft hn htree (hids ▸ hparent) hout
    · exact hstay
  · exact hstay

/-- So does a run of turns. -/
theorem attachAll {entries : Table Entry} (hids : ids = entries.keys) (hn : ids.Nodup)
    (rest : List (Text × Entry)) :
    Ordered ids (done ++ rest.map (·.1)) (attachAll entries ts rest) := by
  induction rest generalizing done ts with
  | nil => simpa [Attachment.attachAll] using ho
  | cons e rest ih =>
    obtain ⟨id, e⟩ := e
    simpa [Attachment.attachAll] using ih (ho.attach hids hn id e.parent)

end Ordered

/-- With distinct identifiers, the forest has each of them once, its roots and the children of
every node in the order of the entries. -/
theorem ordered_forest {entries : Table Entry} (hn : entries.keys.Nodup) :
    Ordered entries.keys entries.keys (forest entries) := by
  simpa [forest, Table.keys] using (ordered_seeds entries).attachAll rfl hn entries

end LvglForest.Attachment
