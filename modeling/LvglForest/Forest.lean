/-!
# Forests

Finite trees with any number of children at each node, and forests, which are lists of such trees.
Every operation on trees comes with the one on forests, and the two recur on each other.
-/

namespace LvglForest

/-- A node with its subtrees in order. -/
inductive Tree (α : Type) where
  | node (label : α) (children : List (Tree α))

/-- Trees in order. -/
abbrev Forest (α : Type) := List (Tree α)

variable {α : Type}

namespace Tree

/-- What stands at the root. -/
def label : Tree α → α
  | .node a _ => a

/-- The subtrees of the root. -/
def children : Tree α → Forest α
  | .node _ ts => ts

end Tree

mutual

/-- The labels of a tree in document order: a node before what is below it. -/
def Tree.toList : Tree α → List α
  | .node a ts => a :: Forest.toList ts

/-- The labels of a forest in document order. -/
def Forest.toList : List (Tree α) → List α
  | [] => []
  | t :: ts => Tree.toList t ++ Forest.toList ts

end

mutual

/-- The subtrees of a tree in document order, the tree itself first. -/
def Tree.subtrees : Tree α → List (Tree α)
  | .node a ts => .node a ts :: Forest.subtrees ts

/-- The subtrees of a forest in document order. -/
def Forest.subtrees : List (Tree α) → List (Tree α)
  | [] => []
  | t :: ts => Tree.subtrees t ++ Forest.subtrees ts

end

mutual

/-- The number of levels of a tree. -/
def Tree.depth : Tree α → Nat
  | .node _ ts => Forest.depth ts + 1

/-- The number of levels of a forest. -/
def Forest.depth : List (Tree α) → Nat
  | [] => 0
  | t :: ts => max (Tree.depth t) (Forest.depth ts)

end

section Graft

variable [DecidableEq α]

mutual

/-- Adds a tree as the last child of each node with a given label. -/
def Tree.graft (parent : α) (new : Tree α) : Tree α → Tree α
  | .node a ts =>
    .node a (if a = parent then Forest.graft parent new ts ++ [new] else Forest.graft parent new ts)

/-- Adds a tree as the last child of each node with a given label. -/
def Forest.graft (parent : α) (new : Tree α) : List (Tree α) → List (Tree α)
  | [] => []
  | t :: ts => Tree.graft parent new t :: Forest.graft parent new ts

end

/-- The first tree whose root has a given label. -/
def Forest.rooted? (a : α) (ts : Forest α) : Option (Tree α) := ts.find? (·.label = a)

/-- The trees whose roots do not have a given label. -/
def Forest.without (a : α) (ts : Forest α) : Forest α := ts.filter (·.label ≠ a)

end Graft

end LvglForest
