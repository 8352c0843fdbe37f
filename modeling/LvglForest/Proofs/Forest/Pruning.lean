import LvglForest.Proofs.Forest

/-!
# Nodes of a forest and pruning

The nodes of a forest in document order, each with the path of child numbers that leads to it and
with what stands above it (`Forest.nodes`). Following the path of a node from the roots reaches it
(`Forest.at?_of_mem_nodes`).

Pruning takes out every tree whose root is not to be kept. What is left are the nodes that are kept
and stand only below such (`Forest.labels_left`); what was taken out hangs on the nodes that are not
kept and stand only below such (`Forest.Node.isCut`), and there are none of these exactly if all is
kept (`Forest.filter_isCut_eq_nil`).
-/

namespace LvglForest

variable {α : Type}

/-! ## Nodes -/

/-- A node where it stands: the child numbers on the way to it, the labels above it, the nearest
first, and its own label. -/
structure Forest.Node (α : Type) where
  path : List Nat
  above : List α
  label : α

mutual

/-- The nodes of a tree that stands at the end of a path, below some labels. -/
def Tree.nodes (path : List Nat) (above : List α) : Tree α → List (Forest.Node α)
  | .node a ts => ⟨path, above, a⟩ :: Forest.nodesFrom path (a :: above) 0 ts

/-- The nodes of trees that stand at the end of a path, numbered from an index on. -/
def Forest.nodesFrom (path : List Nat) (above : List α) (index : Nat) :
    List (Tree α) → List (Forest.Node α)
  | [] => []
  | t :: ts =>
    Tree.nodes (path ++ [index]) above t ++ Forest.nodesFrom path above (index + 1) ts

end

/-- The nodes of a forest. -/
def Forest.nodes (ts : Forest α) : List (Forest.Node α) := Forest.nodesFrom [] [] 0 ts

mutual

theorem Tree.labels_nodes : ∀ (path : List Nat) (above : List α) (t : Tree α),
    (t.nodes path above).map Forest.Node.label = t.toList
  | path, above, .node a ts => by
    rw [Tree.nodes, Tree.toList, List.map_cons, Forest.labels_nodesFrom path (a :: above) 0 ts]

theorem Forest.labels_nodesFrom : ∀ (path : List Nat) (above : List α) (index : Nat)
    (ts : List (Tree α)),
    (Forest.nodesFrom path above index ts).map Forest.Node.label = Forest.toList ts
  | _, _, _, [] => rfl
  | path, above, index, t :: ts => by
    rw [Forest.nodesFrom, Forest.toList, List.map_append, Tree.labels_nodes _ above t,
      Forest.labels_nodesFrom path above (index + 1) ts]

end

/-! ## Following a path -/

/-- The subtree that child numbers lead to from the root of a tree. -/
def Tree.at? : List Nat → Tree α → Option (Tree α)
  | [], t => some t
  | i :: path, t => t.children[i]?.bind (Tree.at? path)

/-- The tree that child numbers lead to from the roots of a forest. -/
def Forest.at? (ts : Forest α) : List Nat → Option (Tree α)
  | [] => none
  | i :: path => ts[i]?.bind (Tree.at? path)

mutual

theorem Tree.at?_of_mem_nodes : ∀ {path : List Nat} {above : List α} {n : Forest.Node α}
    (t : Tree α) (_ : n ∈ t.nodes path above),
    ∃ rest, n.path = path ++ rest ∧ (t.at? rest).map Tree.label = some n.label
  | path, above, n, .node a ts, h => by
    rw [Tree.nodes, List.mem_cons] at h
    rcases h with rfl | h
    · exact ⟨[], by simp, rfl⟩
    · obtain ⟨i, rest, hpath, hat⟩ := Forest.at?_of_mem_nodesFrom ts h
      rw [Nat.zero_add] at hpath
      exact ⟨i :: rest, hpath, hat⟩

/-- A node of trees that are numbered from an index on lies in one of them. -/
theorem Forest.at?_of_mem_nodesFrom : ∀ {path : List Nat} {above : List α} {index : Nat}
    {n : Forest.Node α} (ts : List (Tree α)) (_ : n ∈ Forest.nodesFrom path above index ts),
    ∃ i rest, n.path = path ++ (index + i) :: rest ∧
      (Forest.at? ts (i :: rest)).map Tree.label = some n.label
  | _, _, _, _, [], h => absurd h List.not_mem_nil
  | path, above, index, n, t :: ts, h => by
    rw [Forest.nodesFrom, List.mem_append] at h
    rcases h with h | h
    · obtain ⟨rest, hpath, hat⟩ := Tree.at?_of_mem_nodes t h
      refine ⟨0, rest, ?_, hat⟩
      rw [hpath, List.append_assoc]
      rfl
    · obtain ⟨i, rest, hpath, hat⟩ := Forest.at?_of_mem_nodesFrom ts h
      refine ⟨i + 1, rest, ?_, hat⟩
      rw [hpath, Nat.add_right_comm, Nat.add_assoc]

end

/-- **The path of a node leads to it.** -/
theorem Forest.at?_of_mem_nodes {ts : Forest α} {n : Forest.Node α} (h : n ∈ Forest.nodes ts) :
    (Forest.at? ts n.path).map Tree.label = some n.label := by
  obtain ⟨i, rest, hpath, hat⟩ := Forest.at?_of_mem_nodesFrom ts h
  rw [Nat.zero_add, List.nil_append] at hpath
  rw [hpath]
  exact hat

/-! ## Pruning -/

section Prune

variable (keep : α → Bool)

mutual

/-- What is left of a tree: nothing if its root is not kept. -/
def Tree.prune : Tree α → List (Tree α)
  | .node a ts => if keep a then [.node a (Forest.prune ts)] else []

/-- What is left of a forest without the trees whose roots are not kept. -/
def Forest.prune : List (Tree α) → List (Tree α)
  | [] => []
  | t :: ts => Tree.prune t ++ Forest.prune ts

end

/-- A node is left if it and all that stands above it are kept. -/
def Forest.Node.isLeft (n : Forest.Node α) : Bool := keep n.label && n.above.all keep

/-- A node is where a tree is taken out if it is not kept, but all that stands above it is. -/
def Forest.Node.isCut (n : Forest.Node α) : Bool := !keep n.label && n.above.all keep

mutual

/-- What stands above a tree stands above all its nodes. -/
theorem Tree.all_above {path : List Nat} {above : List α} (h : above.all keep = false) :
    ∀ (t : Tree α), ∀ n ∈ t.nodes path above, n.above.all keep = false
  | .node a ts => by
    have hbelow : (a :: above).all keep = false := by rw [List.all_cons, h, Bool.and_false]
    rw [Tree.nodes, List.forall_mem_cons]
    exact ⟨h, Forest.all_above hbelow 0 ts⟩

theorem Forest.all_above {path : List Nat} {above : List α} (h : above.all keep = false) :
    ∀ (index : Nat) (ts : List (Tree α)),
      ∀ n ∈ Forest.nodesFrom path above index ts, n.above.all keep = false
  | _, [] => fun _ hn => absurd hn List.not_mem_nil
  | index, t :: ts => by
    rw [Forest.nodesFrom, List.forall_mem_append]
    exact ⟨Tree.all_above h t, Forest.all_above h (index + 1) ts⟩

end

/-- Below a node that is not kept, nothing is left and nothing more is taken out. -/
theorem Forest.filter_nodesFrom_of_cut {path : List Nat} {above : List α}
    (h : above.all keep = false) (index : Nat) (ts : List (Tree α)) :
    (Forest.nodesFrom path above index ts).filter (Forest.Node.isLeft keep) = [] ∧
      (Forest.nodesFrom path above index ts).filter (Forest.Node.isCut keep) = [] := by
  have habove : ∀ n ∈ Forest.nodesFrom path above index ts, n.above.all keep = false :=
    Forest.all_above keep h index ts
  constructor <;> rw [List.filter_eq_nil_iff] <;> intro n hn
  · rw [Forest.Node.isLeft, habove n hn, Bool.and_false]
    exact Bool.false_ne_true
  · rw [Forest.Node.isCut, habove n hn, Bool.and_false]
    exact Bool.false_ne_true

mutual

theorem Tree.labels_left {path : List Nat} {above : List α} (h : above.all keep = true) :
    ∀ t : Tree α, ((t.nodes path above).filter (Forest.Node.isLeft keep)).map Forest.Node.label =
      Forest.toList (Tree.prune keep t)
  | .node a ts => by
    have hroot : Forest.Node.isLeft keep ⟨path, above, a⟩ = keep a := by
      rw [Forest.Node.isLeft, h, Bool.and_true]
    rw [Tree.nodes, Tree.prune, List.filter_cons, hroot]
    cases ha : keep a with
    | true =>
      have hbelow : (a :: above).all keep = true := by rw [List.all_cons, ha, h, Bool.and_true]
      rw [if_pos rfl, if_pos rfl, List.map_cons, Forest.labels_leftFrom hbelow 0 ts,
        Forest.toList, Forest.toList, Tree.toList, List.append_nil]
    | false =>
      have hbelow : (a :: above).all keep = false := by rw [List.all_cons, ha, Bool.false_and]
      rw [if_neg Bool.false_ne_true, if_neg Bool.false_ne_true,
        (Forest.filter_nodesFrom_of_cut keep hbelow 0 ts).1]
      rfl

theorem Forest.labels_leftFrom {path : List Nat} {above : List α} (h : above.all keep = true) :
    ∀ (index : Nat) (ts : List (Tree α)),
      ((Forest.nodesFrom path above index ts).filter (Forest.Node.isLeft keep)).map
        Forest.Node.label = Forest.toList (Forest.prune keep ts)
  | _, [] => rfl
  | index, t :: ts => by
    rw [Forest.nodesFrom, Forest.prune, List.filter_append, List.map_append,
      Forest.toList_append, Tree.labels_left h t, Forest.labels_leftFrom h (index + 1) ts]

end

/-- **What pruning leaves** are the nodes that are kept with all that stands above them. -/
theorem Forest.labels_left (ts : Forest α) :
    ((Forest.nodes ts).filter (Forest.Node.isLeft keep)).map Forest.Node.label =
      Forest.toList (Forest.prune keep ts) :=
  Forest.labels_leftFrom keep List.all_nil 0 ts

mutual

theorem Tree.keep_of_mem_prune {a : α} : ∀ (t : Tree α),
    a ∈ Forest.toList (Tree.prune keep t) → keep a = true ∧ a ∈ t.toList
  | .node b ts, h => by
    rw [Tree.prune] at h
    split at h
    · next hb =>
      rw [Forest.toList, Forest.toList, Tree.toList, List.append_nil, List.mem_cons] at h
      rcases h with rfl | h
      · exact ⟨hb, List.mem_cons_self⟩
      · obtain ⟨hkeep, hmem⟩ := Forest.keep_of_mem_prune ts h
        exact ⟨hkeep, List.mem_cons_of_mem _ hmem⟩
    · exact absurd h List.not_mem_nil

/-- What is left is kept, and was there before. -/
theorem Forest.keep_of_mem_prune {a : α} : ∀ (ts : List (Tree α)),
    a ∈ Forest.toList (Forest.prune keep ts) → keep a = true ∧ a ∈ Forest.toList ts
  | [], h => absurd h List.not_mem_nil
  | t :: ts, h => by
    rw [Forest.prune, Forest.toList_append, List.mem_append] at h
    rw [Forest.toList, List.mem_append]
    rcases h with h | h
    · obtain ⟨hkeep, hmem⟩ := Tree.keep_of_mem_prune t h
      exact ⟨hkeep, .inl hmem⟩
    · obtain ⟨hkeep, hmem⟩ := Forest.keep_of_mem_prune ts h
      exact ⟨hkeep, .inr hmem⟩

end

mutual

theorem Tree.prune_eq_self : ∀ t : Tree α, (∀ a ∈ t.toList, keep a = true) → t.prune keep = [t]
  | .node a ts, h => by
    rw [Tree.toList, List.forall_mem_cons] at h
    rw [Tree.prune, if_pos h.1, Forest.prune_eq_self ts h.2]

/-- Nothing is taken out of a forest in which all is kept. -/
theorem Forest.prune_eq_self : ∀ ts : List (Tree α),
    (∀ a ∈ Forest.toList ts, keep a = true) → Forest.prune keep ts = ts
  | [], _ => rfl
  | t :: ts, h => by
    rw [Forest.toList, List.forall_mem_append] at h
    rw [Forest.prune, Tree.prune_eq_self t h.1, Forest.prune_eq_self ts h.2]
    rfl

end

mutual

theorem Tree.keep_of_uncut {path : List Nat} {above : List α} (h : above.all keep = true) :
    ∀ t : Tree α, (t.nodes path above).filter (Forest.Node.isCut keep) = [] →
      ∀ a ∈ t.toList, keep a = true
  | .node a ts, hcut => by
    rw [Tree.nodes, List.filter_cons, Forest.Node.isCut, h, Bool.and_true] at hcut
    cases ha : keep a with
    | true =>
      have hbelow : (a :: above).all keep = true := by rw [List.all_cons, ha, h, Bool.and_true]
      rw [ha, Bool.not_true, if_neg Bool.false_ne_true] at hcut
      rw [Tree.toList, List.forall_mem_cons]
      exact ⟨ha, Forest.keep_of_uncut hbelow 0 ts hcut⟩
    | false =>
      rw [ha, Bool.not_false, if_pos rfl] at hcut
      cases hcut

theorem Forest.keep_of_uncut {path : List Nat} {above : List α} (h : above.all keep = true) :
    ∀ (index : Nat) (ts : List (Tree α)),
      (Forest.nodesFrom path above index ts).filter (Forest.Node.isCut keep) = [] →
        ∀ a ∈ Forest.toList ts, keep a = true
  | _, [], _ => fun _ ha => absurd ha List.not_mem_nil
  | index, t :: ts, hcut => by
    rw [Forest.nodesFrom, List.filter_append, List.append_eq_nil_iff] at hcut
    rw [Forest.toList, List.forall_mem_append]
    exact ⟨Tree.keep_of_uncut h t hcut.1, Forest.keep_of_uncut h (index + 1) ts hcut.2⟩

end

/-- A tree is taken out unless all is kept. -/
theorem Forest.filter_isCut_eq_nil {ts : Forest α} :
    (Forest.nodes ts).filter (Forest.Node.isCut keep) = [] ↔
      ∀ a ∈ Forest.toList ts, keep a = true := by
  refine ⟨Forest.keep_of_uncut keep List.all_nil 0 ts, fun h => ?_⟩
  rw [List.filter_eq_nil_iff]
  intro n hn
  have hlabel : n.label ∈ Forest.toList ts := by
    rw [← Forest.labels_nodesFrom [] [] 0 ts]
    exact List.mem_map_of_mem hn
  rw [Forest.Node.isCut, h _ hlabel, Bool.not_true, Bool.false_and]
  exact Bool.false_ne_true

end Prune

end LvglForest
