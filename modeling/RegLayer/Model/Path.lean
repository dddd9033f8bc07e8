/-
# `RegLayer.Model.Path` — what is above a node

A node's ancestors, nearest first, fix its path, its absolute address and the address map it
belongs to.  The climb ends because handles fall on the way up (`parent_lt`); all that is said
here of a node is said of its list of ancestors, or of the *lineage*, which has the node itself at
the front.

Array subscripts are not part of a path: all elements of an array share one.  An address is that
of the first element, and the sum of offsets may leave its word.
-/
import RegLayer.Model.Basic

namespace RegLayer.Model

/-- The nodes above a node, nearest first. -/
def ancestors (m : Model) (h : Nat) : List Nat :=
  match _hp : m.parent h with
  | none => []
  | some p => p :: m.ancestors p
termination_by h
decreasing_by exact parent_lt _hp

theorem ancestors_eq (m : Model) (h : Nat) :
    m.ancestors h = (m.parent h).elim [] fun p => p :: m.ancestors p := by
  rw [ancestors]
  split <;> simp [*]

/-- A node and the nodes above it, nearest first. -/
def lineage (m : Model) (h : Nat) : List Nat :=
  h :: m.ancestors h

/-- The names from just below `from_` (or from the top) down to the node, joined. -/
def relPath (m : Model) (h : Nat) (from_ : Option Nat) (sep : String) : String :=
  let above := (m.ancestors h).takeWhile fun a => some a != from_
  Text.join sep ((h :: above).map m.name).reverse

/-- The names from the top down to the node, joined by dots. -/
def path (m : Model) (h : Nat) : String :=
  m.relPath h none "."

/-- The absolute address of a node, or of an array's first element. -/
def address (m : Model) (h : Nat) : Except Failure UInt64 := do
  let above ← Checked.sum ((m.ancestors h).map fun a => (m.node a).offset)
  Checked.add64 (m.node h).offset above

/-- The nearest address map around a node, the node itself included. -/
def owner (m : Model) (h : Nat) : Option Nat :=
  (m.lineage h).find? fun a => (m.kind a).isAddrmap

/-- The byte order of the address map around a node. -/
def endianness (m : Model) (h : Nat) : Endianness :=
  match m.owner h with
  | none => .unspecified
  | some a =>
    match m.kind a with
    | .addrmap e _ => e
    | _ => .unspecified

end RegLayer.Model
