import LvglForest.Forest
import Mathlib.Data.List.Count
import Mathlib.Data.List.Perm.Basic
import Mathlib.Data.List.Nodup

/-!
# Forests as lists of trees

Every operation on a forest works on each of its trees, so the operations are those of lists
(`toList_eq_flatMap`, `subtrees_eq_flatMap`, `graft_eq_map`), and a statement about trees is proved
node by node from its subtrees (`Tree.ind`).

Hanging a tree below the one node of a label neither loses nor repeats a label
(`count_toList_graft`) and changes the children of that node alone (`labels_children_graft`).
-/

namespace LvglForest

variable {α : Type}

/-- Induction over a tree: a node may assume the statement for its subtrees. -/
theorem Tree.ind {P : Tree α → Prop} (node : ∀ a ts, (∀ t ∈ ts, P t) → P (.node a ts)) :
    ∀ t, P t :=
  @Tree.rec α P (fun ts => ∀ t ∈ ts, P t) node
    (fun _ h => absurd h List.not_mem_nil)
    (fun _ _ ht hts u hu => (List.mem_cons.1 hu).elim (fun e => e ▸ ht) (hts u))

namespace Forest

theorem toList_eq_flatMap (ts : Forest α) : Forest.toList ts = ts.flatMap Tree.toList := by
  induction ts with
  | nil => rfl
  | cons t ts ih => rw [toList, ih, List.flatMap_cons]

theorem subtrees_eq_flatMap (ts : Forest α) :
    Forest.subtrees ts = ts.flatMap Tree.subtrees := by
  induction ts with
  | nil => rfl
  | cons t ts ih => rw [subtrees, ih, List.flatMap_cons]

theorem toList_append (ts us : Forest α) :
    Forest.toList (ts ++ us) = Forest.toList ts ++ Forest.toList us := by
  simp only [toList_eq_flatMap, List.flatMap_append]

theorem subtrees_append (ts us : Forest α) :
    Forest.subtrees (ts ++ us) = Forest.subtrees ts ++ Forest.subtrees us := by
  simp only [subtrees_eq_flatMap, List.flatMap_append]

theorem mem_subtrees_of_mem {ts : Forest α} {t u : Tree α} (ht : t ∈ ts)
    (hu : u ∈ t.subtrees) : u ∈ Forest.subtrees ts := by
  rw [subtrees_eq_flatMap]
  exact List.mem_flatMap.2 ⟨t, ht, hu⟩

/-- The roots are labels of the forest, in order. -/
theorem roots_sublist_toList (ts : Forest α) :
    (ts.map Tree.label).Sublist (Forest.toList ts) := by
  induction ts with
  | nil => exact List.Sublist.refl _
  | cons t ts ih =>
    obtain ⟨a, us⟩ := t
    rw [toList, Tree.toList, List.map_cons]
    exact (ih.trans (List.sublist_append_right _ _)).cons_cons a

theorem perm_toList {ts us : Forest α} (h : ts.Perm us) :
    (Forest.toList ts).Perm (Forest.toList us) := by
  simp only [toList_eq_flatMap]
  exact h.flatMap_right _

end Forest

theorem Tree.mem_subtrees_self (t : Tree α) : t ∈ t.subtrees := by
  cases t
  exact List.mem_cons_self

/-! ## Relabelling and links -/

section Links

variable {β : Type} (f : α → β)

mutual

/-- A tree with other labels. -/
def Tree.relabel : Tree α → Tree β
  | .node a ts => .node (f a) (Forest.relabel ts)

/-- A forest with other labels. -/
def Forest.relabel : List (Tree α) → List (Tree β)
  | [] => []
  | t :: ts => Tree.relabel t :: Forest.relabel ts

end

mutual

/-- The labels of a tree in document order, each with the name of what stands above it. -/
def Tree.links (above : β) : Tree α → List (β × α)
  | .node a ts => (above, a) :: Forest.links (f a) ts

/-- The labels of a forest in document order, each with the name of what stands above it. -/
def Forest.links (above : β) : List (Tree α) → List (β × α)
  | [] => []
  | t :: ts => Tree.links above t ++ Forest.links above ts

end

theorem Forest.relabel_eq_map (ts : Forest α) :
    Forest.relabel f ts = List.map (Tree.relabel f) ts := by
  induction ts with
  | nil => rfl
  | cons t ts ih => rw [relabel, ih, List.map_cons]

mutual

theorem Tree.toList_relabel : ∀ t : Tree α, (Tree.relabel f t).toList = t.toList.map f
  | .node a ts => by
    rw [Tree.relabel, Tree.toList, Tree.toList, Forest.toList_relabel ts, List.map_cons]

theorem Forest.toList_relabel : ∀ ts : Forest α,
    Forest.toList (Forest.relabel f ts) = (Forest.toList ts).map f
  | [] => rfl
  | t :: ts => by
    rw [Forest.relabel, Forest.toList, Forest.toList, Tree.toList_relabel t,
      Forest.toList_relabel ts, List.map_append]

end

mutual

theorem Tree.map_snd_links : ∀ (above : β) (t : Tree α), (t.links f above).map (·.2) = t.toList
  | above, .node a ts => by
    rw [Tree.links, Tree.toList, List.map_cons, Forest.map_snd_links (f a) ts]

theorem Forest.map_snd_links : ∀ (above : β) (ts : Forest α),
    (Forest.links f above ts).map (·.2) = Forest.toList ts
  | _, [] => rfl
  | above, t :: ts => by
    rw [Forest.links, Forest.toList, List.map_append, Tree.map_snd_links above t,
      Forest.map_snd_links above ts]

end

theorem Forest.mem_links_of_mem {ts : Forest α} {t : Tree α} (h : t ∈ ts) (above : β) :
    (above, t.label) ∈ Forest.links f above ts := by
  induction ts with
  | nil => cases h
  | cons u ts ih =>
    rw [links, List.mem_append]
    rcases List.mem_cons.1 h with rfl | h
    · cases t
      exact .inl List.mem_cons_self
    · exact .inr (ih h)

mutual

/-- The links of the names are the names of the links. -/
theorem Tree.links_relabel : ∀ (above : β) (t : Tree α),
    (Tree.relabel f t).links id above = (t.links f above).map fun (b, a) => (b, f a)
  | above, .node a ts => by
    rw [Tree.relabel, Tree.links, Tree.links, List.map_cons, ← Forest.links_relabel (f a) ts]
    rfl

theorem Forest.links_relabel : ∀ (above : β) (ts : Forest α),
    Forest.links id above (Forest.relabel f ts) =
      (Forest.links f above ts).map fun (b, a) => (b, f a)
  | _, [] => rfl
  | above, t :: ts => by
    rw [Forest.relabel, Forest.links, Forest.links, List.map_append, Tree.links_relabel above t,
      Forest.links_relabel above ts]

end

mutual

theorem Tree.links_comp {γ : Type} (g : β → γ) : ∀ (above : β) (t : Tree α),
    t.links (g ∘ f) (g above) = (t.links f above).map fun (b, a) => (g b, a)
  | above, .node a ts => by
    rw [Tree.links, Tree.links, List.map_cons, ← Forest.links_comp g (f a) ts]
    rfl

/-- Other names are given to the links. -/
theorem Forest.links_comp {γ : Type} (g : β → γ) : ∀ (above : β) (ts : Forest α),
    Forest.links (g ∘ f) (g above) ts = (Forest.links f above ts).map fun (b, a) => (g b, a)
  | _, [] => rfl
  | above, t :: ts => by
    rw [Forest.links, Forest.links, List.map_append, Tree.links_comp g above t,
      Forest.links_comp g above ts]

end

end Links

/-! ## Grafts -/

section Graft

variable [DecidableEq α] (p : α) (new : Tree α)

theorem Forest.graft_eq_map (ts : Forest α) :
    Forest.graft p new ts = ts.map (Tree.graft p new) := by
  induction ts with
  | nil => rfl
  | cons t ts ih => rw [graft, ih, List.map_cons]

@[simp] theorem Tree.label_graft (t : Tree α) : (Tree.graft p new t).label = t.label := by
  cases t
  rw [graft, label, label]

/-- A graft leaves the roots. -/
theorem Forest.labels_graft (ts : Forest α) :
    (Forest.graft p new ts).map Tree.label = ts.map Tree.label := by
  rw [graft_eq_map, List.map_map]
  exact List.map_congr_left fun t _ => Tree.label_graft p new t

theorem Tree.labels_children_graft (t : Tree α) :
    (Tree.graft p new t).children.map Tree.label =
      t.children.map Tree.label ++ if t.label = p then [new.label] else [] := by
  obtain ⟨a, ts⟩ := t
  rw [graft, Forest.graft_eq_map]
  show List.map label (if a = p then ts.map (graft p new) ++ [new] else ts.map (graft p new)) =
    ts.map label ++ if a = p then [new.label] else []
  split <;> simp [Function.comp_def]

mutual

/-- Each node of the label gets one copy of the new tree. -/
theorem Tree.count_toList_graft [BEq α] [LawfulBEq α] (x : α) : ∀ t : Tree α,
    (Tree.graft p new t).toList.count x = t.toList.count x + t.toList.count p * new.toList.count x
  | .node a ts => by
    have hts := Forest.count_toList_graft x ts
    rw [Tree.graft, Tree.toList, Tree.toList, List.count_cons, List.count_cons, List.count_cons]
    split
    · next hp =>
      rw [Forest.toList_append, List.count_append, hts, hp]
      simp only [Forest.toList, List.append_nil, beq_self_eq_true, if_true, Nat.add_mul]
      omega
    · next hp =>
      have hbeq : (a == p) = false := beq_eq_false_iff_ne.2 hp
      rw [hts, hbeq, if_neg Bool.false_ne_true, Nat.add_zero]
      omega

theorem Forest.count_toList_graft [BEq α] [LawfulBEq α] (x : α) : ∀ ts : Forest α,
    (Forest.toList (Forest.graft p new ts)).count x =
      (Forest.toList ts).count x + (Forest.toList ts).count p * new.toList.count x
  | [] => by simp [Forest.graft, Forest.toList]
  | t :: ts => by
    rw [Forest.graft, Forest.toList, Forest.toList, List.count_append, List.count_append,
      List.count_append, Forest.count_toList_graft x ts, Tree.count_toList_graft x t, Nat.add_mul]
    omega

end

mutual

/-- A subtree after a graft is one from before, grafted itself, or lies in the new tree. -/
theorem Tree.mem_subtrees_graft {u : Tree α} : ∀ t : Tree α, u ∈ (Tree.graft p new t).subtrees →
    (∃ s ∈ t.subtrees, u = Tree.graft p new s) ∨ u ∈ new.subtrees
  | .node a ts, h => by
    have hts := Forest.mem_subtrees_graft (u := u) ts
    rw [Tree.graft, Tree.subtrees, List.mem_cons] at h
    rcases h with rfl | h
    · exact .inl ⟨.node a ts, Tree.mem_subtrees_self _, by rw [Tree.graft]⟩
    have hmem : u ∈ Forest.subtrees (Forest.graft p new ts) ∨ u ∈ new.subtrees := by
      split at h
      · rw [Forest.subtrees_append, List.mem_append] at h
        simpa [Forest.subtrees] using h
      · exact .inl h
    rcases hmem with h | h
    · rcases hts h with ⟨s, hs, hu⟩ | hnew
      · exact .inl ⟨s, List.mem_cons_of_mem _ hs, hu⟩
      · exact .inr hnew
    · exact .inr h

theorem Forest.mem_subtrees_graft {u : Tree α} : ∀ ts : Forest α,
    u ∈ Forest.subtrees (Forest.graft p new ts) →
      (∃ s ∈ Forest.subtrees ts, u = Tree.graft p new s) ∨ u ∈ new.subtrees
  | [], h => absurd h List.not_mem_nil
  | t :: ts, h => by
    rw [Forest.graft, Forest.subtrees, List.mem_append] at h
    rw [Forest.subtrees]
    rcases h with h | h
    · rcases Tree.mem_subtrees_graft t h with ⟨s, hs, hu⟩ | hnew
      · exact .inl ⟨s, List.mem_append_left _ hs, hu⟩
      · exact .inr hnew
    · rcases Forest.mem_subtrees_graft ts h with ⟨s, hs, hu⟩ | hnew
      · exact .inl ⟨s, List.mem_append_right _ hs, hu⟩
      · exact .inr hnew

end

/-! ## Taking a tree out -/

/-- With distinct roots, the tree of a root and the other trees are the whole forest. -/
theorem Forest.perm_rooted?_without {ts : Forest α} {a : α} {t : Tree α}
    (hn : (ts.map Tree.label).Nodup) (h : Forest.rooted? a ts = some t) :
    ts.Perm (t :: Forest.without a ts) := by
  induction ts with
  | nil => cases h
  | cons u ts ih =>
    rw [List.map_cons, List.nodup_cons] at hn
    rw [rooted?, List.find?_cons] at h
    cases hu : decide (u.label = a) with
    | true =>
      rw [hu] at h
      cases h
      have hu : t.label = a := by simpa using hu
      have hrest : Forest.without a ts = ts := by
        rw [without, List.filter_eq_self]
        intro v hv
        have : v.label ≠ a := fun e => hn.1 (hu ▸ e ▸ List.mem_map_of_mem hv)
        simpa using this
      have hfirst : Forest.without a (t :: ts) = Forest.without a ts := by
        simp [without, hu]
      rw [hfirst, hrest]
    | false =>
      rw [hu] at h
      have hu : u.label ≠ a := by simpa using hu
      have hfirst : Forest.without a (u :: ts) = u :: Forest.without a ts := by
        simp [without, hu]
      rw [hfirst]
      exact ((ih hn.2 h).cons u).trans (List.Perm.swap t u _)

theorem Forest.label_of_rooted? {ts : Forest α} {a : α} {t : Tree α}
    (h : Forest.rooted? a ts = some t) : t.label = a := by
  simpa using List.find?_some h

theorem Forest.exists_rooted? {ts : Forest α} {a : α} (h : a ∈ ts.map Tree.label) :
    ∃ t, Forest.rooted? a ts = some t := by
  obtain ⟨t, ht, hlabel⟩ := List.mem_map.1 h
  rw [← Option.isSome_iff_exists, rooted?, List.find?_isSome]
  exact ⟨t, ht, decide_eq_true hlabel⟩

theorem Forest.without_sublist (a : α) (ts : Forest α) : (Forest.without a ts).Sublist ts :=
  List.filter_sublist

theorem Forest.mem_labels_without {a b : α} {ts : Forest α} :
    b ∈ (Forest.without a ts).map Tree.label ↔ b ∈ ts.map Tree.label ∧ b ≠ a := by
  simp only [without, List.mem_map, List.mem_filter, decide_eq_true_eq]
  constructor
  · rintro ⟨t, ⟨ht, hne⟩, rfl⟩
    exact ⟨⟨t, ht, rfl⟩, hne⟩
  · rintro ⟨⟨t, ht, rfl⟩, hne⟩
    exact ⟨t, ⟨ht, hne⟩, rfl⟩

theorem Forest.subtrees_without_subset (a : α) (ts : Forest α) :
    Forest.subtrees (Forest.without a ts) ⊆ Forest.subtrees ts := by
  intro s hs
  rw [subtrees_eq_flatMap, List.mem_flatMap] at hs ⊢
  obtain ⟨t, ht, hst⟩ := hs
  exact ⟨t, (without_sublist a ts).subset ht, hst⟩

end Graft

end LvglForest
