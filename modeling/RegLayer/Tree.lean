/-
# `RegLayer.Tree` — trees with ordered children

Three things of this library are trees: the elements of a description, the components that a
description describes, and the part of a model below a node.  A tree is visited with the node
first (the order of a document), with the node last (the order in which classes are written), or
with a visit at both moments.

Each order is a mutual recursion over a tree and a list of trees.  The `…All_eq` lemmas turn the
second half into `flatMap`, and `induct` is the induction that goes with it: what holds of a node
whenever it holds of its children holds of every tree.
-/

namespace RegLayer

/-- A tree with a label at every node and its children in order. -/
inductive Tree (α : Type) where
  | node (label : α) (children : List (Tree α))
  deriving Repr

namespace Tree

variable {α β : Type}

/-- The label at the top. -/
def label : Tree α → α
  | node a _ => a

/-- The trees just below the top. -/
def children : Tree α → List (Tree α)
  | node _ ts => ts

@[simp] theorem label_node (a : α) (ts : List (Tree α)) : (node a ts).label = a := rfl

@[simp] theorem children_node (a : α) (ts : List (Tree α)) : (node a ts).children = ts := rfl

/-- Induction over a tree: what holds of a node whenever it holds of its children holds of
every tree. -/
theorem induct {P : Tree α → Prop}
    (step : ∀ a ts, (∀ t ∈ ts, P t) → P (node a ts)) (t : Tree α) : P t := by
  refine @Tree.rec α P (fun ts => ∀ t ∈ ts, P t) ?_ ?_ ?_ t
  · exact fun a ts h => step a ts h
  · simp
  · intro t ts ht hts u hu
    rcases List.mem_cons.1 hu with rfl | hu
    · exact ht
    · exact hts u hu

/-! ## Orders -/

mutual

/-- The labels, each node before its children. -/
def preorder : Tree α → List α
  | node a ts => a :: preorderAll ts

/-- The labels of trees one after the other, each node before its children. -/
def preorderAll : List (Tree α) → List α
  | [] => []
  | t :: ts => preorder t ++ preorderAll ts

end

mutual

/-- The labels, each node after its children. -/
def postorder : Tree α → List α
  | node a ts => postorderAll ts ++ [a]

/-- The labels of trees one after the other, each node after its children. -/
def postorderAll : List (Tree α) → List α
  | [] => []
  | t :: ts => postorder t ++ postorderAll ts

end

/-- A visit to a node, before or after the visits to what is below it. -/
inductive Visit (α : Type) where
  | enter (a : α)
  | leave (a : α)
  deriving DecidableEq, Repr

mutual

/-- The visits of a walk around the tree. -/
def walk : Tree α → List (Visit α)
  | node a ts => .enter a :: (walkAll ts ++ [.leave a])

/-- The visits of walks around the trees, one after the other. -/
def walkAll : List (Tree α) → List (Visit α)
  | [] => []
  | t :: ts => walk t ++ walkAll ts

end

theorem preorderAll_eq (ts : List (Tree α)) : preorderAll ts = ts.flatMap preorder := by
  induction ts with
  | nil => rfl
  | cons t ts ih => simp [preorderAll, ih]

theorem postorderAll_eq (ts : List (Tree α)) : postorderAll ts = ts.flatMap postorder := by
  induction ts with
  | nil => rfl
  | cons t ts ih => simp [postorderAll, ih]

theorem walkAll_eq (ts : List (Tree α)) : walkAll ts = ts.flatMap walk := by
  induction ts with
  | nil => rfl
  | cons t ts ih => simp [walkAll, ih]

end Tree

end RegLayer
