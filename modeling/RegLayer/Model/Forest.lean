/-
# `RegLayer.Model.Forest` — models from trees of components

A reader turns a description into trees of components and a list of declarations.  Here the trees
become a model: the nodes get their handles in the order of the description, each before those
below it.

Planting is a recursion on the tree that adds a node and goes on below it (`graft`).  It uses the
operations that add nodes and declarations and no others, so whatever these keep holds of every
design that was read.  The declarations come first, and a node refers to them by their numbers.
-/
import RegLayer.Model.Subtree

namespace RegLayer

/-! ## Declarations -/

/-- Declarations known by a label each, in the order in which the labels were first met. -/
structure Declarations where
  labels : Array String

namespace Declarations

def empty : Declarations := ⟨#[]⟩

/-- The declaration of a label, a new one if the label is met for the first time. -/
def intern (d : Declarations) (label : String) : DeclId × Declarations :=
  match d.labels.idxOf? label with
  | some i => (⟨i⟩, d)
  | none => (⟨d.labels.size⟩, ⟨d.labels.push label⟩)

end Declarations

namespace Model

/-! ## Planting -/

mutual

/-- The model with a tree of components added, top-level or below a node. -/
def graft (m : Model) (under : Option Nat) : Tree Node → Model
  | .node n ts => graftAll (m.add under n) (some m.size) ts

/-- The model with trees of components added one after the other. -/
def graftAll (m : Model) (under : Option Nat) : List (Tree Node) → Model
  | [] => m
  | t :: ts => graftAll (graft m under t) under ts

end

/-- The model of a description: its declarations and its top-level trees. -/
def ofForest (d : Declarations) (forest : List (Tree Node)) : Model :=
  graftAll { empty with labels := d.labels } none forest

end Model

end RegLayer
