import LvglForest.Proofs.Forest

/-!
# Forests up to order

Two forests may have the same trees and differ only in the order of roots and of siblings
(`Forest.Reordered`). A forest in which no label is repeated is given up to order by what stands
above each label (`Forest.Follows`): two forests of the same labels with the same parents are
reordered into each other (`Forest.Follows.reordered`).
-/

namespace LvglForest

variable {α : Type}

/-- Forests in which only the order of roots and siblings may differ. -/
inductive Forest.Reordered : List (Tree α) → List (Tree α) → Prop
  | nil : Reordered [] []
  | cons (a : α) {ts us vs ws : List (Tree α)} (below : Reordered ts us) (rest : Reordered vs ws) :
    Reordered (.node a ts :: vs) (.node a us :: ws)
  | swap (t u : Tree α) (ts : List (Tree α)) : Reordered (t :: u :: ts) (u :: t :: ts)
  | trans {ts us vs : List (Tree α)} (first : Reordered ts us) (second : Reordered us vs) :
    Reordered ts vs

namespace Forest.Reordered

theorem refl : ∀ ts : List (Tree α), Reordered ts ts
  | [] => .nil
  | .node a us :: ts => .cons a (refl us) (refl ts)

variable {ts us vs ws : List (Tree α)}

theorem append_left (ts : List (Tree α)) (h : Reordered vs ws) : Reordered (ts ++ vs) (ts ++ ws) := by
  induction ts with
  | nil => exact h
  | cons t ts ih =>
    obtain ⟨a, us⟩ := t
    exact .cons a (refl us) ih

theorem append_right (h : Reordered ts us) (vs : List (Tree α)) : Reordered (ts ++ vs) (us ++ vs) := by
  induction h with
  | nil => exact refl vs
  | cons a below _ _ ih => exact .cons a below ih
  | swap t u ts => exact .swap t u (ts ++ vs)
  | trans _ _ ih₁ ih₂ => exact ih₁.trans ih₂

theorem of_perm (h : ts.Perm us) : Reordered ts us := by
  induction h with
  | nil => exact .nil
  | cons t _ ih =>
    obtain ⟨a, vs⟩ := t
    exact .cons a (refl vs) ih
  | swap t u ts => exact .swap u t ts
  | trans _ _ ih₁ ih₂ => exact ih₁.trans ih₂

/-- Both forests have the same labels. -/
theorem perm_toList (h : Reordered ts us) : (Forest.toList ts).Perm (Forest.toList us) := by
  induction h with
  | nil => exact .refl _
  | cons a _ _ ih₁ ih₂ =>
    rw [Forest.toList, Forest.toList, Tree.toList, Tree.toList]
    exact (ih₁.cons a).append ih₂
  | swap t u ts => exact Forest.perm_toList (.swap u t ts)
  | trans _ _ ih₁ ih₂ => exact ih₁.trans ih₂

/-- Trees that match by their labels. -/
theorem of_labels (hlabels : (ts.map Tree.label).Perm (us.map Tree.label))
    (hmatch : ∀ t ∈ ts, ∀ u ∈ us, t.label = u.label → Reordered [t] [u]) : Reordered ts us := by
  induction ts generalizing us with
  | nil =>
    rw [List.map_nil, List.nil_perm, List.map_eq_nil_iff] at hlabels
    exact hlabels ▸ .nil
  | cons t ts ih =>
    have hmem : t.label ∈ us.map Tree.label := hlabels.subset List.mem_cons_self
    obtain ⟨u, hu, hlabel⟩ := List.mem_map.1 hmem
    obtain ⟨before, behind, rfl⟩ := List.append_of_mem hu
    have hfirst : (before ++ u :: behind).Perm (u :: (before ++ behind)) := List.perm_middle
    have hrest : (ts.map Tree.label).Perm ((before ++ behind).map Tree.label) := by
      have hall := hlabels.trans (hfirst.map Tree.label)
      rw [List.map_cons, List.map_cons, hlabel] at hall
      exact hall.cons_inv
    have hothers := ih hrest fun t' ht' u' hu' =>
      hmatch t' (List.mem_cons_of_mem _ ht') u' (hfirst.symm.subset (List.mem_cons_of_mem _ hu'))
    have hone := hmatch t List.mem_cons_self u hu hlabel.symm
    exact ((hone.append_right ts).trans (hothers.append_left [u])).trans (of_perm hfirst.symm)

end Forest.Reordered

/-! ## Labels and what stands above them -/

mutual

theorem Tree.map_label_subtrees : ∀ t : Tree α, t.subtrees.map Tree.label = t.toList
  | .node a ts => by
    rw [Tree.subtrees, Tree.toList, List.map_cons, Forest.map_label_subtrees ts, Tree.label]

theorem Forest.map_label_subtrees : ∀ ts : List (Tree α),
    (Forest.subtrees ts).map Tree.label = Forest.toList ts
  | [] => rfl
  | t :: ts => by
    rw [Forest.subtrees, Forest.toList, List.map_append, Tree.map_label_subtrees t,
      Forest.map_label_subtrees ts]

end

mutual

theorem Tree.exists_above {x : α} : ∀ t : Tree α, x ∈ t.toList →
    x = t.label ∨ ∃ s ∈ t.subtrees, x ∈ s.children.map Tree.label
  | .node a ts, h => by
    rw [Tree.toList, List.mem_cons] at h
    refine h.imp id fun h => ?_
    rcases Forest.exists_above ts h with hroot | ⟨s, hs, hx⟩
    · exact ⟨.node a ts, Tree.mem_subtrees_self _, hroot⟩
    · exact ⟨s, List.mem_cons_of_mem _ hs, hx⟩

/-- A label stands at a root or at a child. -/
theorem Forest.exists_above {x : α} : ∀ ts : List (Tree α), x ∈ Forest.toList ts →
    x ∈ ts.map Tree.label ∨ ∃ s ∈ Forest.subtrees ts, x ∈ s.children.map Tree.label
  | [], h => by cases h
  | t :: ts, h => by
    rw [Forest.toList, List.mem_append] at h
    rw [List.map_cons, List.mem_cons, Forest.subtrees]
    rcases h with h | h
    · exact (Tree.exists_above t h).imp .inl fun ⟨s, hs, hx⟩ => ⟨s, List.mem_append_left _ hs, hx⟩
    · exact (Forest.exists_above ts h).imp .inr
        fun ⟨s, hs, hx⟩ => ⟨s, List.mem_append_right _ hs, hx⟩

end

mutual

theorem Tree.toList_sublist {s : Tree α} : ∀ t : Tree α, s ∈ t.subtrees →
    s.toList.Sublist t.toList
  | .node a ts, h => by
    rw [Tree.subtrees, List.mem_cons] at h
    rcases h with rfl | h
    · exact .refl _
    · rw [Tree.toList]
      exact (Forest.toList_sublist ts h).cons a

theorem Forest.toList_sublist {s : Tree α} : ∀ ts : List (Tree α),
    s ∈ Forest.subtrees ts → s.toList.Sublist (Forest.toList ts)
  | [], h => by cases h
  | t :: ts, h => by
    rw [Forest.subtrees, List.mem_append] at h
    rw [Forest.toList]
    rcases h with h | h
    · exact (Tree.toList_sublist t h).trans (List.sublist_append_left _ _)
    · exact (Forest.toList_sublist ts h).trans (List.sublist_append_right _ _)

end

theorem Forest.labels_children_sublist {ts : Forest α} {t : Tree α} (ht : t ∈ Forest.subtrees ts) :
    (t.children.map Tree.label).Sublist (Forest.toList ts) := by
  have htree := Forest.toList_sublist ts ht
  obtain ⟨a, us⟩ := t
  exact ((Forest.roots_sublist_toList us).trans (List.sublist_cons_self a _)).trans htree

mutual

theorem Tree.mem_subtrees_of_child {s c : Tree α} (hc : c ∈ s.children) :
    ∀ t : Tree α, s ∈ t.subtrees → c ∈ t.subtrees
  | .node a ts, h => by
    rw [Tree.subtrees, List.mem_cons] at h ⊢
    rcases h with rfl | h
    · exact .inr (Forest.mem_subtrees_of_mem hc (Tree.mem_subtrees_self c))
    · exact .inr (Forest.mem_subtrees_of_child hc ts h)

theorem Forest.mem_subtrees_of_child {s c : Tree α} (hc : c ∈ s.children) :
    ∀ ts : List (Tree α), s ∈ Forest.subtrees ts → c ∈ Forest.subtrees ts
  | [], h => by cases h
  | t :: ts, h => by
    rw [Forest.subtrees, List.mem_append] at h ⊢
    exact h.imp (Tree.mem_subtrees_of_child hc t) (Forest.mem_subtrees_of_child hc ts)

end

/-- A forest repeats no label, and each label stands below the one that is given for it, or at a
root if none is given. -/
structure Forest.Follows (above : α → Option α) (ts : Forest α) : Prop where
  nodup : (Forest.toList ts).Nodup
  root : ∀ t ∈ ts, above t.label = none
  child : ∀ t ∈ Forest.subtrees ts, ∀ c ∈ t.children, above c.label = some t.label

namespace Forest.Follows

variable {above : α → Option α} {ts us : Forest α}

theorem mem_roots_iff (h : Follows above ts) {x : α} :
    x ∈ ts.map Tree.label ↔ x ∈ Forest.toList ts ∧ above x = none := by
  constructor
  · intro hx
    obtain ⟨t, ht, rfl⟩ := List.mem_map.1 hx
    exact ⟨(Forest.roots_sublist_toList ts).subset hx, h.root t ht⟩
  · rintro ⟨hx, hnone⟩
    rcases Forest.exists_above ts hx with hroot | ⟨s, hs, hchild⟩
    · exact hroot
    · obtain ⟨c, hc, rfl⟩ := List.mem_map.1 hchild
      rw [h.child s hs c hc] at hnone
      cases hnone

theorem mem_children_iff (h : Follows above ts) {t : Tree α} (ht : t ∈ Forest.subtrees ts) {x : α} :
    x ∈ t.children.map Tree.label ↔ x ∈ Forest.toList ts ∧ above x = some t.label := by
  constructor
  · intro hx
    obtain ⟨c, hc, rfl⟩ := List.mem_map.1 hx
    exact ⟨(Forest.labels_children_sublist ht).subset hx, h.child t ht c hc⟩
  · rintro ⟨hx, hsome⟩
    rcases Forest.exists_above ts hx with hroot | ⟨s, hs, hchild⟩
    · obtain ⟨u, hu, rfl⟩ := List.mem_map.1 hroot
      rw [h.root u hu] at hsome
      cases hsome
    · obtain ⟨c, hc, rfl⟩ := List.mem_map.1 hchild
      rw [h.child s hs c hc, Option.some.injEq] at hsome
      have hnodup : ((Forest.subtrees ts).map Tree.label).Nodup := by
        rw [Forest.map_label_subtrees]
        exact h.nodup
      rw [← List.inj_on_of_nodup_map hnodup hs ht hsome]
      exact hchild

theorem nodup_roots (h : Follows above ts) : (ts.map Tree.label).Nodup :=
  h.nodup.sublist (Forest.roots_sublist_toList ts)

theorem nodup_children (h : Follows above ts) {t : Tree α} (ht : t ∈ Forest.subtrees ts) :
    (t.children.map Tree.label).Nodup :=
  h.nodup.sublist (Forest.labels_children_sublist ht)

/-- **Parents give a forest up to order.** -/
theorem reordered (ht : Follows above ts) (hu : Follows above us)
    (hperm : (Forest.toList ts).Perm (Forest.toList us)) : Reordered ts us := by
  have htrees : ∀ t : Tree α, t ∈ Forest.subtrees ts → ∀ u ∈ Forest.subtrees us,
      t.label = u.label → Reordered [t] [u] := by
    intro t
    induction t using Tree.ind with
    | node a vs ih =>
      rintro hmem ⟨b, ws⟩ hmem' rfl
      refine .cons a (.of_labels ?_ fun t htvs u huws hlabel => ?_) .nil
      · refine (List.perm_ext_iff_of_nodup (ht.nodup_children hmem) (hu.nodup_children hmem')).2
          fun x => ?_
        exact (ht.mem_children_iff hmem).trans
          ((and_congr_left fun _ => hperm.mem_iff).trans (hu.mem_children_iff hmem').symm)
      · exact ih t htvs (Forest.mem_subtrees_of_child htvs ts hmem) u
          (Forest.mem_subtrees_of_child huws us hmem') hlabel
  refine .of_labels ?_ fun t htts u huus hlabel => htrees t ?_ u ?_ hlabel
  · refine (List.perm_ext_iff_of_nodup ht.nodup_roots hu.nodup_roots).2 fun x => ?_
    exact ht.mem_roots_iff.trans ((and_congr_left fun _ => hperm.mem_iff).trans hu.mem_roots_iff.symm)
  · exact Forest.mem_subtrees_of_mem htts (Tree.mem_subtrees_self t)
  · exact Forest.mem_subtrees_of_mem huus (Tree.mem_subtrees_self u)

end Forest.Follows

end LvglForest
