import LvglForest.Hierarchy.Climb
import LvglForest.Proofs.Hierarchy.Resolution

/-!
# Climbs decide as the trees do

The table of parents holds the links of the forest (`Attachment.Linked`), and these run in no circle
(`Attachment.Linked.acyclic`): from each identifier to its parent the tree below grows. So a climb
ends, after no more looks than there are identifiers, and it meets an identifier whose turn it is
exactly if it starts in the tree of this identifier (`Attachment.Linked.climb_eq`). One turn by
climbing is therefore one turn by looking into the tree (`Attachment.turn_eq`), and so is a whole
run (`Attachment.turns_eq`).
-/

namespace LvglForest

/-- A child has fewer nodes below it. -/
theorem Tree.length_toList_lt {α : Type} {t u : Tree α} (h : t ∈ u.children) :
    t.toList.length < u.toList.length := by
  obtain ⟨a, ts⟩ := u
  have ht : t ∈ Forest.subtrees ts := Forest.mem_subtrees_of_mem h t.mem_subtrees_self
  exact Nat.lt_succ_of_le (Forest.toList_sublist ts ht).length_le

namespace Attachment

variable {entries : Table Entry} {done : List Text} {ts : Forest Text} {parents : Table Text}
  {id : Text}

namespace Resolved

variable (h : Resolved entries done ts)
include h

theorem exists_subtree {x : Text} (hx : x ∈ entries.keys) :
    ∃ s ∈ Forest.subtrees ts, s.label = x := by
  have hmem := h.ordered.perm.symm.subset hx
  rw [← Forest.map_label_subtrees] at hmem
  exact List.mem_map.1 hmem

variable (hn : entries.keys.Nodup)
include hn

theorem eq_of_label {s u : Tree Text} (hs : s ∈ Forest.subtrees ts) (hu : u ∈ Forest.subtrees ts)
    (hsu : s.label = u.label) : s = u := by
  have hnodup : ((Forest.subtrees ts).map Tree.label).Nodup := by
    rw [Forest.map_label_subtrees]
    exact h.ordered.perm.nodup_iff.2 hn
  exact List.inj_on_of_nodup_map hnodup hs hu hsu

/-- A root lies in no other tree. -/
theorem label_eq_of_mem_toList {tree : Tree Text} (htree : tree ∈ ts) {x : Text}
    (hx : x ∈ tree.toList) (hroot : x ∈ ts.map Tree.label) : tree.label = x := by
  obtain ⟨t, ht⟩ := Forest.exists_rooted? hroot
  have hsplit := Forest.perm_toList
    (Forest.perm_rooted?_without (h.ordered.nodup_roots hn) ht)
  have hnodup := hsplit.nodup_iff.1 (h.ordered.perm.nodup_iff.2 hn)
  rw [Forest.toList, List.nodup_append] at hnodup
  have hself : x ∈ t.toList := by
    rw [← Forest.label_of_rooted? ht, ← Tree.map_label_subtrees]
    exact List.mem_map_of_mem t.mem_subtrees_self
  by_contra hne
  have hwithout : tree ∈ Forest.without x ts := List.mem_filter.2 ⟨htree, by simpa using hne⟩
  refine hnodup.2.2 x hself x ?_ rfl
  rw [Forest.toList_eq_flatMap]
  exact List.mem_flatMap.2 ⟨tree, hwithout, hx⟩

end Resolved

/-! ## The links of a forest -/

/-- **The table of parents** holds what those name that are no roots. -/
def Linked (entries : Table Entry) (ts : Forest Text) (parents : Table Text) : Prop :=
  ∀ x y, parents.get? x = some y ↔ Names entries x y ∧ x ∉ ts.map Tree.label

theorem linked_seeds (entries : Table Entry) : Linked entries (seeds entries) [] := by
  refine fun x y => iff_of_false (fun h => nomatch h) fun ⟨hnames, hroot⟩ => hroot ?_
  rw [labels_seeds]
  exact (mem_keys_of_names hnames).1

namespace Linked

variable (hl : Linked entries ts parents)
include hl

/-- Hanging an identifier adds its link. -/
theorem put {parent : Text} {tree : Tree Text} (hnames : Names entries id parent) :
    Linked entries (Forest.graft parent tree (Forest.without id ts)) (parents.put id parent) := by
  intro x y
  rw [Table.get?_put, Forest.labels_graft, Forest.mem_labels_without]
  by_cases hx : id = x
  · subst hx
    rw [if_pos rfl, Option.some.injEq]
    refine ⟨fun h => ⟨h ▸ hnames, fun h => h.2 rfl⟩, fun h => ?_⟩
    exact rightUnique_names entries hnames h.1
  · rw [if_neg hx, hl x y, not_and_or, not_not, or_iff_left (Ne.symm hx)]

variable (h : Resolved entries done ts) (hn : entries.keys.Nodup)
include h hn

/-- From an identifier to its parent the tree below grows. -/
theorem exists_larger {s : Tree Text} (hs : s ∈ Forest.subtrees ts) {y : Text}
    (hsy : parents.get? s.label = some y) :
    ∃ u ∈ Forest.subtrees ts, u.label = y ∧ s ∈ u.children ∧
      s.toList.length < u.toList.length := by
  obtain ⟨hnames, hroot⟩ := (hl s.label y).1 hsy
  have hmem : s.label ∈ Forest.toList ts :=
    h.ordered.perm.symm.subset (mem_keys_of_names hnames).1
  obtain ⟨u, hu, hsu⟩ := (Forest.exists_above ts hmem).resolve_left hroot
  obtain ⟨c, hc, hcs⟩ := List.mem_map.1 hsu
  obtain rfl := h.eq_of_label hn (Forest.mem_subtrees_of_child hc ts hu) hs hcs
  exact ⟨u, hu, rightUnique_names entries (h.child u hu c hc).1 hnames, hc,
    Tree.length_toList_lt hc⟩

/-- **The links run in no circle.** -/
theorem acyclic (x : Text) : ¬ Relation.TransGen (fun x y => parents.get? x = some y) x x := by
  have hgrows {s : Tree Text} (hs : s ∈ Forest.subtrees ts) {y : Text}
      (hsy : Relation.TransGen (fun x y => parents.get? x = some y) s.label y) :
      ∃ u ∈ Forest.subtrees ts, u.label = y ∧ s.toList.length < u.toList.length := by
    induction hsy with
    | single hsy =>
      obtain ⟨u, hu, huy, -, hlt⟩ := hl.exists_larger h hn hs hsy
      exact ⟨u, hu, huy, hlt⟩
    | tail _ hyz ih =>
      obtain ⟨u, hu, rfl, hlt⟩ := ih
      obtain ⟨v, hv, hvz, -, hlt'⟩ := hl.exists_larger h hn hu hyz
      exact ⟨v, hv, hvz, hlt.trans hlt'⟩
  intro hcircle
  obtain ⟨y, hxy, -⟩ := Relation.TransGen.head'_iff.1 hcircle
  obtain ⟨s, hs, rfl⟩ := h.exists_subtree (mem_keys_of_names ((hl x y).1 hxy).1).1
  obtain ⟨u, hu, hus, hlt⟩ := hgrows hs hcircle
  rw [h.eq_of_label hn hu hs hus] at hlt
  exact lt_irrefl _ hlt

/-- Who is no root of a tree lies in it exactly if the parent does. -/
theorem mem_toList_iff {tree : Tree Text} (htree : tree ∈ ts) {x y : Text} (hx : x ≠ tree.label)
    (hxy : parents.get? x = some y) : x ∈ tree.toList ↔ y ∈ tree.toList := by
  have hnames := ((hl x y).1 hxy).1
  constructor
  · intro hmem
    obtain ⟨-, z, hz, hxz⟩ := (h.below htree hmem).resolve_left hx
    exact rightUnique_names entries hxz hnames ▸ hz
  · intro hmem
    obtain ⟨s, hs, rfl⟩ := h.exists_subtree (mem_keys_of_names hnames).1
    obtain ⟨u, hu, hlabel, hsu, -⟩ := hl.exists_larger h hn hs hxy
    rw [← Tree.map_label_subtrees] at hmem ⊢
    obtain ⟨v, hv, hvy⟩ := List.mem_map.1 hmem
    obtain rfl := h.eq_of_label hn (Forest.mem_subtrees_of_mem htree hv) hu (hvy.trans hlabel.symm)
    exact List.mem_map_of_mem (Tree.mem_subtrees_of_child hsu tree hv)

variable {tree : Tree Text} (hroot : Forest.rooted? id ts = some tree)
include hroot

/-- A climb with looks enough for all identifiers that have more below them. -/
theorem climb_of_length {looks : Nat} {s : Tree Text} (hs : s ∈ Forest.subtrees ts)
    (hlooks : (Forest.toList ts).length < s.toList.length + looks) :
    climb parents id looks s.label = some (decide (s.label ∈ tree.toList)) := by
  have htree : tree ∈ ts := List.mem_of_find?_eq_some hroot
  have hlabel : tree.label = id := Forest.label_of_rooted? hroot
  -- Each look at a parent is one at a larger tree, so there is always a look left.
  induction looks generalizing s with
  | zero =>
    have hle := (Forest.toList_sublist ts hs).length_le
    omega
  | succ looks ih =>
    rw [climb]
    by_cases hid : s.label = id
    · have hself : s.label ∈ tree.toList := by
        rw [hid, ← hlabel, ← Tree.map_label_subtrees]
        exact List.mem_map_of_mem tree.mem_subtrees_self
      rw [if_pos hid, decide_eq_true hself]
    rw [if_neg hid]
    cases hparent : parents.get? s.label with
    | none =>
      have hout : s.label ∉ tree.toList := by
        intro hmem
        obtain ⟨-, y, -, hnames⟩ :=
          (h.below htree hmem).resolve_left fun hself => hid (hself.trans hlabel)
        have hroots : s.label ∈ ts.map Tree.label := by
          by_contra hroots
          have hsome := (hl s.label y).2 ⟨hnames, hroots⟩
          cases hparent.symm.trans hsome
        exact hid ((h.label_eq_of_mem_toList hn htree hmem hroots).symm.trans hlabel)
      simp only [decide_eq_false hout]
    | some y =>
      obtain ⟨u, hu, rfl, -, hlt⟩ := hl.exists_larger h hn hs hparent
      have hmem := hl.mem_toList_iff h hn htree (fun hself => hid (hself.trans hlabel)) hparent
      simp only [ih hu (by omega), hmem]

/-- **A climb ends**, and it meets the identifier exactly if it starts in its tree. -/
theorem climb_eq {parent : Text} (hparent : parent ∈ entries.keys) :
    climb parents id entries.length parent = some (tree.toList.contains parent) := by
  obtain ⟨s, hs, rfl⟩ := h.exists_subtree hparent
  have htotal : (Forest.toList ts).length = entries.length :=
    h.ordered.perm.length_eq.trans (List.length_map _)
  have hpositive : 0 < s.toList.length := by
    obtain ⟨a, us⟩ := s
    exact Nat.succ_pos _
  rw [hl.climb_of_length h hn hroot hs (by omega), List.contains_eq_mem]

end Linked

/-! ## Turns -/

/-- **One turn by climbing** hangs what looking into the tree hangs, and keeps the links. -/
theorem turn_eq (hl : Linked entries ts parents) (h : Resolved entries done ts)
    (hn : entries.keys.Nodup) {rest : List Text} (hkeys : entries.keys = done ++ id :: rest)
    {e : Entry} (he : entries.get? id = some e) :
    ∃ parents', turn entries ⟨ts, parents⟩ id e.parent =
        some ⟨attach entries ts id e.parent, parents'⟩ ∧
      Linked entries (attach entries ts id e.parent) parents' := by
  have hdone : id ∉ done := by
    rw [hkeys] at hn
    exact fun hmem => (List.nodup_append.1 hn).2.2 id hmem id List.mem_cons_self rfl
  obtain ⟨tree, hroot⟩ := Forest.exists_rooted?
    (h.pending id (hkeys ▸ List.mem_append_right _ List.mem_cons_self) hdone)
  cases hreference : e.parent with
  | text parent =>
    rw [turn, attach, movable?, hroot]
    cases hcreated : entries.has parent with
    | false => exact ⟨parents, rfl, hl⟩
    | true =>
      have hparent := Table.has_iff_mem_keys.1 hcreated
      have hnames : Names entries id parent := by
        rw [Names, above_of_get? he hreference, if_pos hparent]
      simp only [if_true, hl.climb_eq h hn hroot hparent, Option.map_some, Bool.true_and]
      cases tree.toList.contains parent with
      | true => exact ⟨parents, rfl, hl⟩
      | false => exact ⟨parents.put id parent, rfl, hl.put hnames⟩
  | _ => exact ⟨parents, rfl, hl⟩

/-- A run of turns by climbing. -/
theorem turns_of_linked (hl : Linked entries ts parents) (h : Resolved entries done ts)
    (hn : entries.keys.Nodup) {rest : List (Text × Entry)}
    (hkeys : entries.keys = done ++ rest.map (·.1))
    (hrest : ∀ e ∈ rest, entries.get? e.1 = some e.2) :
    ∃ parents', turns entries ⟨ts, parents⟩ rest = some ⟨attachAll entries ts rest, parents'⟩ ∧
      Linked entries (attachAll entries ts rest) parents' := by
  induction rest generalizing done ts parents with
  | nil => exact ⟨parents, rfl, hl⟩
  | cons a rest ih =>
    obtain ⟨id, e⟩ := a
    rw [List.forall_mem_cons] at hrest
    obtain ⟨parents₁, hturn, hl₁⟩ := turn_eq hl h hn hkeys hrest.1
    rw [turns, hturn]
    refine ih hl₁ (h.attach hn hkeys hrest.1) ?_ hrest.2
    rw [hkeys, List.append_assoc]
    rfl

/-- **Climbing along parents gives the forest** that looking into the trees gives, whatever the
references are, and the links that are left run in no circle. -/
theorem turns_eq (hn : entries.keys.Nodup) :
    ∃ parents, turns entries ⟨seeds entries, []⟩ entries = some ⟨forest entries, parents⟩ ∧
      ∀ x, ¬ Relation.TransGen (fun x y => parents.get? x = some y) x x := by
  obtain ⟨parents, hturns, hl⟩ := turns_of_linked (linked_seeds entries) (Resolved.seeds entries) hn
    rfl fun _ he => Table.get?_of_mem hn he
  exact ⟨parents, hturns, hl.acyclic (resolved_forest hn) hn⟩

end Attachment

end LvglForest
