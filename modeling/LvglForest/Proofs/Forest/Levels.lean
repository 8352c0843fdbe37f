import LvglForest.Proofs.Forest

/-!
# Levels

A forest written down node by node, each label with its depth. The depths say where a tree ends: at
the next label that stands no deeper than its root. So the list determines the forest
(`Forest.levels_injective`).
-/

namespace LvglForest

variable {α β : Type}

mutual

/-- The labels of a tree in document order, each with its depth. -/
def Tree.levels (depth : Nat) : Tree α → List (Nat × α)
  | .node a ts => (depth, a) :: Forest.levels (depth + 1) ts

/-- The labels of a forest in document order, each with its depth. -/
def Forest.levels (depth : Nat) : List (Tree α) → List (Nat × α)
  | [] => []
  | t :: ts => Tree.levels depth t ++ Forest.levels depth ts

end

mutual

theorem Tree.map_snd_levels : ∀ (depth : Nat) (t : Tree α), (t.levels depth).map (·.2) = t.toList
  | depth, .node a ts => by
    rw [Tree.levels, Tree.toList, List.map_cons, Forest.map_snd_levels (depth + 1) ts]

theorem Forest.map_snd_levels : ∀ (depth : Nat) (ts : Forest α),
    (Forest.levels depth ts).map (·.2) = Forest.toList ts
  | _, [] => rfl
  | depth, t :: ts => by
    rw [Forest.levels, Forest.toList, List.map_append, Tree.map_snd_levels depth t,
      Forest.map_snd_levels depth ts]

end

/-- What holds of all labels is asked at any depth. -/
theorem Forest.forall_mem_levels {Q : α → Prop} (depth : Nat) (ts : Forest α) :
    (∀ l ∈ Forest.levels depth ts, Q l.2) ↔ ∀ a ∈ Forest.toList ts, Q a := by
  rw [← Forest.map_snd_levels depth ts, List.forall_mem_map]

theorem Forest.mem_toList_of_mem_levels {depth : Nat} {ts : Forest α} {l : Nat × α}
    (h : l ∈ Forest.levels depth ts) : l.2 ∈ Forest.toList ts := by
  rw [← Forest.map_snd_levels depth ts]
  exact List.mem_map_of_mem h

mutual

theorem Tree.levels_relabel (f : α → β) : ∀ (depth : Nat) (t : Tree α),
    (Tree.relabel f t).levels depth = (t.levels depth).map fun (n, a) => (n, f a)
  | depth, .node a ts => by
    rw [Tree.relabel, Tree.levels, Tree.levels, List.map_cons,
      Forest.levels_relabel f (depth + 1) ts]

theorem Forest.levels_relabel (f : α → β) : ∀ (depth : Nat) (ts : Forest α),
    Forest.levels depth (Forest.relabel f ts) =
      (Forest.levels depth ts).map fun (n, a) => (n, f a)
  | _, [] => rfl
  | depth, t :: ts => by
    rw [Forest.relabel, Forest.levels, Forest.levels, List.map_append,
      Tree.levels_relabel f depth t, Forest.levels_relabel f depth ts]

end

/-! ## Where a tree ends -/

/-- What comes next, if anything does, stands above a depth. -/
def NextAbove (depth : Nat) (ls : List (Nat × α)) : Prop := ∀ l, ls.head? = some l → l.1 < depth

theorem NextAbove.levels_append {depth : Nat} {r : List (Nat × α)} (h : NextAbove depth r)
    (ts : Forest α) : NextAbove (depth + 1) (Forest.levels depth ts ++ r) := by
  intro l hl
  cases ts with
  | nil => exact Nat.lt_succ_of_lt (h l hl)
  | cons t ts =>
    obtain ⟨a, us⟩ := t
    rw [Forest.levels, Tree.levels] at hl
    cases hl
    exact Nat.lt_succ_self depth

theorem NextAbove.ne_levels_append {depth : Nat} {r : List (Nat × α)} (h : NextAbove depth r)
    (t : Tree α) (ts : Forest α) (s : List (Nat × α)) :
    r ≠ Forest.levels depth (t :: ts) ++ s := by
  rintro rfl
  obtain ⟨a, us⟩ := t
  exact Nat.lt_irrefl depth (h (depth, a) rfl)

mutual

theorem Tree.eq_of_levels_append {depth : Nat} : ∀ {t u : Tree α} {r s : List (Nat × α)},
    NextAbove (depth + 1) r → NextAbove (depth + 1) s →
      t.levels depth ++ r = u.levels depth ++ s → t = u ∧ r = s
  | .node a ts, .node b us, r, s, hr, hs, h => by
    rw [Tree.levels, Tree.levels, List.cons_append, List.cons_append] at h
    obtain ⟨hlabel, hbelow⟩ := List.cons.inj h
    -- What follows the tree stands above the forest below its root, so that forest ends there.
    obtain ⟨rfl, hrest⟩ := Forest.eq_of_levels_append hr hs hbelow
    exact ⟨congrArg (Tree.node · ts) (congrArg Prod.snd hlabel), hrest⟩

/-- **A forest ends** where what comes next stands above it. -/
theorem Forest.eq_of_levels_append {depth : Nat} : ∀ {ts us : List (Tree α)} {r s : List (Nat × α)},
    NextAbove depth r → NextAbove depth s →
      Forest.levels depth ts ++ r = Forest.levels depth us ++ s → ts = us ∧ r = s
  | [], [], _, _, _, _, h => ⟨rfl, h⟩
  | [], u :: us, _, s, hr, _, h => absurd h (hr.ne_levels_append u us s)
  | t :: ts, [], r, _, _, hs, h => absurd h.symm (hs.ne_levels_append t ts r)
  | t :: ts, u :: us, r, s, hr, hs, h => by
    rw [Forest.levels, Forest.levels, List.append_assoc, List.append_assoc] at h
    obtain ⟨rfl, hothers⟩ :=
      Tree.eq_of_levels_append (hr.levels_append ts) (hs.levels_append us) h
    obtain ⟨rfl, hrest⟩ := Forest.eq_of_levels_append hr hs hothers
    exact ⟨rfl, hrest⟩

end

/-- **The levels determine the forest.** -/
theorem Forest.levels_injective (depth : Nat) {ts us : Forest α}
    (h : Forest.levels depth ts = Forest.levels depth us) : ts = us := by
  have hnone : NextAbove depth ([] : List (Nat × α)) := fun _ hl => nomatch hl
  refine (Forest.eq_of_levels_append hnone hnone ?_).1
  rw [h]

end LvglForest
