/-
# `RegLayer.Model.Subtree` — what is below a node

The part of a model below a node is a tree of handles.  The descent ends because handles grow on
the way down (`lt_of_mem_children`), and `subtree_eq` is the recursion without the bookkeeping for
that.  Every traversal is one of the orders of this tree, so facts about orders are proved once,
of trees.
-/
import RegLayer.Model.Basic
import RegLayer.Tree

namespace RegLayer.Model

/-- The tree of handles with a node at its top. -/
def subtree (m : Model) (h : Nat) : Tree Nat :=
  .node h ((m.children h).attach.map fun c => m.subtree c.1)
termination_by m.size - h
decreasing_by
  have := lt_of_mem_children c.2
  omega

theorem subtree_eq (m : Model) (h : Nat) :
    m.subtree h = .node h ((m.children h).map m.subtree) := by
  rw [subtree]
  simp

@[simp] theorem label_subtree (m : Model) (h : Nat) : (m.subtree h).label = h := by
  rw [subtree_eq]
  rfl

/-- The nodes below a node, each after those below it, and the node itself last. -/
def postorder (m : Model) (h : Nat) : List Nat :=
  (m.subtree h).postorder

/-- The visits of a walk around a node and all that is below it. -/
def walk (m : Model) (h : Nat) : List (Tree.Visit Nat) :=
  (m.subtree h).walk

end RegLayer.Model
