import LvglForest.Proofs.Hierarchy.Attachment

/-!
# Hanging along the links of a forest

If the references of the entries are the links of a forest in document order, hanging the
identifiers gives this forest back (`Attachment.forest_of_links`). When an identifier has its turn,
what stands before it is built and what comes after it is still a leaf of its own
(`Attachment.hang_leaf`); so a whole tree has its turns one after the other and is hung as it is
(`Attachment.foldl_hang_forest`), the children of a node going where the node went (`Forest.foldl_graft`).
-/

namespace LvglForest

/-! ## Grafts one after the other -/

section Graft

variable {α : Type} [DecidableEq α]

mutual

theorem Tree.graft_of_not_mem {p : α} (new : Tree α) : ∀ (t : Tree α) (_ : p ∉ t.toList),
    Tree.graft p new t = t
  | .node a ts, h => by
    rw [Tree.toList, List.mem_cons, not_or] at h
    rw [Tree.graft, if_neg (Ne.symm h.1), Forest.graft_of_not_mem new ts h.2]

theorem Forest.graft_of_not_mem {p : α} (new : Tree α) : ∀ (ts : List (Tree α))
    (_ : p ∉ Forest.toList ts), Forest.graft p new ts = ts
  | [], _ => rfl
  | t :: ts, h => by
    rw [Forest.toList, List.mem_append, not_or] at h
    rw [Forest.graft, Tree.graft_of_not_mem new t h.1, Forest.graft_of_not_mem new ts h.2]

end

theorem Forest.graft_append (p : α) (new : Tree α) (ts us : Forest α) :
    Forest.graft p new (ts ++ us) = Forest.graft p new ts ++ Forest.graft p new us := by
  rw [graft_eq_map, graft_eq_map, graft_eq_map, List.map_append]

theorem Forest.graft_singleton {a : α} {us : Forest α} (u : Tree α) (h : a ∉ Forest.toList us) :
    Forest.graft a u [.node a us] = [.node a (us ++ [u])] := by
  rw [graft, graft, Tree.graft, if_pos rfl, graft_of_not_mem u us h]

theorem Forest.mem_toList_graft {p x : α} {new : Tree α} {ts : Forest α}
    (h : x ∈ Forest.toList (Forest.graft p new ts)) : x ∈ Forest.toList ts ∨ x ∈ new.toList := by
  by_contra hout
  rw [not_or] at hout
  have hcount := Forest.count_toList_graft p new x ts
  rw [List.count_eq_zero.2 hout.1, List.count_eq_zero.2 hout.2] at hcount
  exact List.count_eq_zero.1 (by simpa using hcount) h

mutual

/-- A tree that is hung below the root of a tree that was hung before. -/
theorem Tree.graft_graft {p a : α} (us : Forest α) (u : Tree α) (hus : a ∉ Forest.toList us) :
    ∀ (t : Tree α) (_ : a ∉ t.toList),
      Tree.graft a u (Tree.graft p (.node a us) t) = Tree.graft p (.node a (us ++ [u])) t
  | .node b ts, h => by
    rw [Tree.toList, List.mem_cons, not_or] at h
    have hts := Forest.graft_graft (p := p) us u hus ts h.2
    rw [Tree.graft, Tree.graft, Tree.graft, if_neg (Ne.symm h.1)]
    split
    · rw [Forest.graft_append, hts, Forest.graft_singleton u hus]
    · rw [hts]

theorem Forest.graft_graft {p a : α} (us : Forest α) (u : Tree α) (hus : a ∉ Forest.toList us) :
    ∀ (ts : List (Tree α)) (_ : a ∉ Forest.toList ts),
      Forest.graft a u (Forest.graft p (.node a us) ts) = Forest.graft p (.node a (us ++ [u])) ts
  | [], _ => rfl
  | t :: ts, h => by
    rw [Forest.toList, List.mem_append, not_or] at h
    rw [Forest.graft, Forest.graft, Forest.graft, Tree.graft_graft us u hus t h.1,
      Forest.graft_graft us u hus ts h.2]

end

/-- Trees that are hung below a node one after the other become its children, wherever the node
stands. -/
theorem Forest.foldl_graft {a : α} (place : Tree α → Forest α)
    (hplace : ∀ us u, a ∉ Forest.toList us →
      Forest.graft a u (place (.node a us)) = place (.node a (us ++ [u])))
    (us : Forest α) {ts : Forest α} (h : a ∉ Forest.toList ts) (hus : a ∉ Forest.toList us) :
    ts.foldl (fun fs t => Forest.graft a t fs) (place (.node a us)) =
      place (.node a (us ++ ts)) := by
  induction ts generalizing us with
  | nil => rw [List.foldl_nil, List.append_nil]
  | cons t ts ih =>
    rw [Forest.toList, List.mem_append, not_or] at h
    have hmore : a ∉ Forest.toList (us ++ [t]) := by
      rw [Forest.toList_append, List.mem_append, not_or, Forest.toList, Forest.toList,
        List.append_nil]
      exact ⟨hus, h.1⟩
    rw [List.foldl_cons, hplace us t hus, ih (us ++ [t]) h.2 hmore, List.append_assoc]
    rfl

end Graft

namespace Attachment

/-! ## The turn of a leaf -/

/-- Identifiers, each as a tree of its own. -/
def leaves (ids : List Text) : Forest Text := ids.map fun id => .node id []

/-- Hangs an identifier below another one. -/
def hang (entries : Table Entry) (ts : Forest Text) (link : Text × Text) : Forest Text :=
  attach entries ts link.2 (.text link.1)

theorem attachAll_eq_foldl {entries : Table Entry} {rest : List (Text × Entry)}
    {links : List (Text × Text)}
    (h : rest.map (fun e => (e.2.parent, e.1)) = links.map fun (p, id) => (.text p, id))
    (ts : Forest Text) : attachAll entries ts rest = links.foldl (hang entries) ts := by
  induction rest generalizing links ts with
  | nil =>
    rw [List.map_nil, eq_comm, List.map_eq_nil_iff] at h
    rw [h]
    rfl
  | cons e rest ih =>
    obtain ⟨id, e⟩ := e
    cases links with
    | nil => cases h
    | cons link links =>
      simp only [List.map_cons, List.cons.injEq, Prod.mk.injEq] at h
      obtain ⟨⟨hparent, hid⟩, hrest⟩ := h
      rw [attachAll, List.foldl_cons, ih hrest, hparent, hid]
      rfl

theorem not_mem_leaves {a : Text} {ids : List Text} (h : a ∉ ids) :
    ∀ t ∈ leaves ids, t.label ≠ a := by
  intro t ht
  obtain ⟨id, hid, rfl⟩ := List.mem_map.1 ht
  rintro rfl
  exact h hid

theorem not_mem_roots {a : Text} {ts : Forest Text} (h : a ∉ Forest.toList ts) :
    ∀ t ∈ ts, t.label ≠ a := by
  rintro t ht rfl
  exact h ((Forest.roots_sublist_toList ts).subset (List.mem_map_of_mem ht))

/-- A leaf that has its turn is hung below a node that stands before it. -/
theorem hang_leaf {entries : Table Entry} {ts : Forest Text} {p a : Text} {rest : List Text}
    (hp : p ∈ entries.keys) (hpa : p ≠ a) (hprest : p ∉ rest) (ha : a ∉ Forest.toList ts)
    (harest : a ∉ rest) :
    hang entries (ts ++ leaves (a :: rest)) (p, a) =
      Forest.graft p (.node a []) ts ++ leaves rest := by
  have hroots : ∀ t ∈ ts, ¬ decide (t.label = a) = true := by
    simpa using not_mem_roots ha
  have hrooted : Forest.rooted? a (ts ++ leaves (a :: rest)) = some (.node a []) := by
    rw [Forest.rooted?, List.find?_append, List.find?_eq_none.2 hroots, Option.none_or, leaves,
      List.map_cons, List.find?_cons]
    simp [Tree.label]
  have hmovable : movable? entries (ts ++ leaves (a :: rest)) a p = some (.node a []) := by
    unfold movable?
    rw [hrooted]
    simp [Table.has_iff_mem_keys.2 hp, Tree.toList, Forest.toList, hpa]
  have hwithout : Forest.without a (ts ++ leaves (a :: rest)) = ts ++ leaves rest := by
    have hts : ts.filter (·.label ≠ a) = ts :=
      List.filter_eq_self.2 (by simpa using not_mem_roots ha)
    have hrest : (leaves rest).filter (·.label ≠ a) = leaves rest :=
      List.filter_eq_self.2 (by simpa using not_mem_leaves harest)
    have hleaf : (leaves (a :: rest)).filter (·.label ≠ a) = leaves rest := by
      rw [leaves, List.map_cons, List.filter_cons_of_neg (by simp [Tree.label])]
      exact hrest
    rw [Forest.without, List.filter_append, hts, hleaf]
  have hleaves : p ∉ Forest.toList (leaves rest) := by
    have htoList : Forest.toList (leaves rest) = rest := by
      clear * -
      induction rest with
      | nil => rfl
      | cons id rest ih => exact congrArg (id :: ·) ih
    rwa [htoList]
  rw [hang, attach]
  simp only [hmovable, hwithout]
  rw [Forest.graft_append, Forest.graft_of_not_mem _ _ hleaves]

/-! ## The turns of a forest -/

/-- Identifiers whose turn comes next: they are created, are hung below a created one that is
neither among them nor comes after them, and nothing that is built already has their names. -/
structure Fresh (entries : Table Entry) (p : Text) (ts : Forest Text) (ids rest : List Text) :
    Prop where
  created : ∀ x ∈ p :: ids, x ∈ entries.keys
  nodup : (p :: (ids ++ rest)).Nodup
  fresh : ∀ x ∈ ids ++ rest, x ∉ Forest.toList ts

namespace Fresh

variable {entries : Table Entry} {p a : Text} {ts : Forest Text} {ids more rest : List Text}

theorem hang (h : Fresh entries p ts (a :: ids) rest) :
    Attachment.hang entries (ts ++ leaves (a :: ids ++ rest)) (p, a) =
      Forest.graft p (.node a []) ts ++ leaves (ids ++ rest) := by
  obtain ⟨hcreated, hnodup, hfresh⟩ := h
  rw [List.cons_append, List.nodup_cons, List.nodup_cons, List.mem_cons, not_or] at hnodup
  exact hang_leaf (hcreated p List.mem_cons_self) hnodup.1.1 hnodup.1.2
    (hfresh a (List.mem_append_left _ List.mem_cons_self)) hnodup.2.1

/-- The identifiers below a node, after the node has had its turn. -/
theorem children (h : Fresh entries p ts (a :: ids) rest) :
    Fresh entries a (Forest.graft p (.node a []) ts) ids rest where
  created x hx := h.created x (List.mem_cons_of_mem _ hx)
  nodup := h.nodup.of_cons
  fresh x hx hmem := by
    have hnodup := h.nodup.of_cons
    rw [List.cons_append, List.nodup_cons] at hnodup
    rcases Forest.mem_toList_graft hmem with hmem | hmem
    · exact h.fresh x (List.mem_cons_of_mem _ hx) hmem
    · rw [Tree.toList, Forest.toList, List.mem_singleton] at hmem
      exact hnodup.1 (hmem ▸ hx)

theorem left (h : Fresh entries p ts (ids ++ more) rest) :
    Fresh entries p ts ids (more ++ rest) where
  created x hx := h.created x (by simp only [List.mem_cons, List.mem_append] at hx ⊢; tauto)
  nodup := List.append_assoc ids more rest ▸ h.nodup
  fresh := List.append_assoc ids more rest ▸ h.fresh

/-- The identifiers after those of a tree, when the tree has been hung. -/
theorem right {t : Tree Text} (h : Fresh entries p ts (t.toList ++ more) rest) :
    Fresh entries p (Forest.graft p t ts) more rest where
  created x hx := h.created x (by simp only [List.mem_cons, List.mem_append] at hx ⊢; tauto)
  nodup := by
    refine h.nodup.sublist (List.Sublist.cons_cons _ ?_)
    rw [List.append_assoc]
    exact List.sublist_append_right _ _
  fresh x hx hmem := by
    have hnodup := h.nodup.of_cons
    rw [List.append_assoc, List.nodup_append] at hnodup
    rcases Forest.mem_toList_graft hmem with hmem | hmem
    · exact h.fresh x (by rw [List.append_assoc]; exact List.mem_append_right _ hx) hmem
    · exact hnodup.2.2 x hmem x hx rfl

end Fresh

mutual

/-- The turns of a tree hang it as it is. -/
theorem foldl_hang_tree {entries : Table Entry} : ∀ {p : Text} {ts : Forest Text} {rest : List Text}
    (t : Tree Text) (_ : Fresh entries p ts t.toList rest),
    (t.links id p).foldl (hang entries) (ts ++ leaves (t.toList ++ rest)) =
      Forest.graft p t ts ++ leaves rest
  | p, ts, rest, .node a us, h => by
    rw [Tree.toList] at h
    have hus := foldl_hang_forest us h.children
    have hnodup := h.nodup.of_cons
    rw [List.cons_append, List.nodup_cons, List.mem_append, not_or] at hnodup
    have ha : a ∉ Forest.toList ts := h.fresh a List.mem_cons_self
    have hplace : ∀ vs u, a ∉ Forest.toList vs → Forest.graft a u (Forest.graft p (.node a vs) ts) =
        Forest.graft p (.node a (vs ++ [u])) ts :=
      fun vs u hvs => Forest.graft_graft vs u hvs ts ha
    have hfold := Forest.foldl_graft (fun t => Forest.graft p t ts) hplace [] hnodup.1.1
      List.not_mem_nil
    rw [Tree.links, Tree.toList, List.foldl_cons, h.hang]
    exact hus.trans (congrArg (· ++ leaves rest) hfold)

/-- The turns of trees hang them one after the other. -/
theorem foldl_hang_forest {entries : Table Entry} : ∀ {p : Text} {ts : Forest Text}
    {rest : List Text} (us : List (Tree Text)) (_ : Fresh entries p ts (Forest.toList us) rest),
    (Forest.links id p us).foldl (hang entries) (ts ++ leaves (Forest.toList us ++ rest)) =
      us.foldl (fun fs t => Forest.graft p t fs) ts ++ leaves rest
  | _, _, _, [], _ => rfl
  | p, ts, rest, u :: us, h => by
    rw [Forest.toList] at h
    have hu := foldl_hang_tree u h.left
    have hus := foldl_hang_forest us h.right
    rw [Forest.links, Forest.toList, List.foldl_append, List.append_assoc, hu, hus, List.foldl_cons]

end

/-- An identifier whose reference names nothing that is created stays where it is. -/
theorem hang_of_not_mem {entries : Table Entry} {p : Text} (hp : p ∉ entries.keys)
    (ts : Forest Text) (a : Text) : hang entries ts (p, a) = ts := by
  have hmovable : movable? entries ts a p = none := by
    unfold movable?
    cases Forest.rooted? a ts with
    | none => rfl
    | some t => simp [Table.has_eq_false_iff.2 hp]
  rw [hang, attach]
  simp only [hmovable]

/-- The turns of the trees of a forest make the forest, if the roots name nothing that is
created. -/
theorem foldl_hang_roots {entries : Table Entry} {p : Text} (hp : p ∉ entries.keys)
    (ts us : Forest Text) (hcreated : ∀ x ∈ Forest.toList us, x ∈ entries.keys)
    (hnodup : (Forest.toList (ts ++ us)).Nodup) :
    (Forest.links id p us).foldl (hang entries) (ts ++ leaves (Forest.toList us)) = ts ++ us := by
  induction us generalizing ts with
  | nil => rfl
  | cons u us ih =>
    obtain ⟨a, vs⟩ := u
    have hids : Forest.toList (.node a vs :: us) =
        a :: (Forest.toList vs ++ Forest.toList us) := rfl
    rw [hids] at hcreated
    rw [Forest.toList_append, hids, List.nodup_append] at hnodup
    obtain ⟨hts, hus, hdisjoint⟩ := hnodup
    have ha : a ∉ Forest.toList ts := fun h => hdisjoint a h a List.mem_cons_self rfl
    have havs : a ∉ Forest.toList vs :=
      fun h => (List.nodup_cons.1 hus).1 (List.mem_append_left _ h)
    have hfresh : Fresh entries a (ts ++ [.node a []]) (Forest.toList vs) (Forest.toList us) := by
      refine ⟨fun x hx => hcreated x ?_, hus, fun x hx hmem => ?_⟩
      · simp only [List.mem_cons, List.mem_append] at hx ⊢
        tauto
      · rw [Forest.toList_append, List.mem_append] at hmem
        rcases hmem with hmem | hmem
        · exact hdisjoint x hmem x (List.mem_cons_of_mem _ hx) rfl
        · have hxa : x = a := by simpa [Forest.toList, Tree.toList] using hmem
          exact (List.nodup_cons.1 hus).1 (hxa ▸ hx)
    have hplace : ∀ ws w, a ∉ Forest.toList ws →
        Forest.graft a w (ts ++ [.node a ws]) = ts ++ [.node a (ws ++ [w])] := by
      intro ws w hws
      rw [Forest.graft_append, Forest.graft_of_not_mem w ts ha, Forest.graft_singleton w hws]
    have hfold := Forest.foldl_graft (fun t => ts ++ [t]) hplace [] havs List.not_mem_nil
    have hrest : (Forest.toList (ts ++ [.node a vs] ++ us)).Nodup := by
      rw [List.append_assoc, Forest.toList_append, List.nodup_append]
      exact ⟨hts, hus, hdisjoint⟩
    have hleaves : ts ++ leaves (a :: (Forest.toList vs ++ Forest.toList us)) =
        ts ++ [.node a []] ++ leaves (Forest.toList vs ++ Forest.toList us) := by
      rw [List.append_assoc]
      rfl
    have hchildren := foldl_hang_forest vs hfresh
    rw [hfold, List.nil_append] at hchildren
    have hothers := ih (ts ++ [.node a vs])
      (fun x hx => hcreated x (List.mem_cons_of_mem _ (List.mem_append_right _ hx))) hrest
    rw [Forest.links, Tree.links, List.cons_append, List.foldl_cons, hang_of_not_mem hp, hids,
      hleaves, List.foldl_append]
    exact (congrArg (List.foldl (hang entries) · (Forest.links id p us)) hchildren).trans
      (hothers.trans (List.append_assoc _ _ _))

/-- **A forest is rebuilt from its links.** If the references of the entries are the links of a
forest, hanging the identifiers gives this forest. -/
theorem forest_of_links {entries : Table Entry} {p : Text} {ts : Forest Text}
    (hentries : entries.map (fun e => (e.2.parent, e.1)) =
      (Forest.links id p ts).map fun (q, a) => (.text q, a))
    (hp : p ∉ Forest.toList ts) (hnodup : (Forest.toList ts).Nodup) :
    forest entries = ts := by
  have hkeys : entries.keys = Forest.toList ts := by
    have hids := congrArg (List.map (·.2)) hentries
    rw [List.map_map, List.map_map] at hids
    exact hids.trans (Forest.map_snd_links id p ts)
  have hseeds : seeds entries = leaves (Forest.toList ts) := by rw [← hkeys]; rfl
  have hparent : p ∉ entries.keys := hkeys ▸ hp
  have hturns := foldl_hang_roots hparent [] ts (fun x hx => hkeys ▸ hx) hnodup
  rw [forest, attachAll_eq_foldl hentries, hseeds]
  exact hturns

end Attachment

end LvglForest
