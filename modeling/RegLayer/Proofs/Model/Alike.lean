/-
# `RegLayer.Proofs.Model.Alike` — components that look the same

Two components are alike if they are of one kind with the same properties, and their children
correspond one to one, each with the name, offset and array shape of its partner and alike again
(`alike_iff`).  A component's own place plays no part: not its name, its offset or its shape, and
not where its type is declared.

The outline of a component is its subtree with the handles forgotten, and being alike is a
comparison of outlines (`outline_inj` says what is compared).  Outlines are data, so this can be
computed, and transitivity and symmetry are those of equality.  Descriptions have no part in it.
-/
import Mathlib.Data.List.Forall2
import RegLayer.Model.Subtree

namespace RegLayer

/-! ## Trees with other labels -/

namespace Tree

variable {α β : Type}

mutual

/-- The tree of this shape with every label changed. -/
def map (f : α → β) : Tree α → Tree β
  | node a ts => node (f a) (mapAll f ts)

/-- The trees of these shapes with every label changed. -/
def mapAll (f : α → β) : List (Tree α) → List (Tree β)
  | [] => []
  | t :: ts => map f t :: mapAll f ts

end

theorem mapAll_eq (f : α → β) (ts : List (Tree α)) : mapAll f ts = ts.map (map f) := by
  induction ts with
  | nil => rfl
  | cons t ts ih =>
    rw [mapAll, ih]
    rfl

theorem postorder_map (f : α → β) (t : Tree α) : (t.map f).postorder = t.postorder.map f := by
  induction t using Tree.induct with
  | step a ts ih =>
    have hts : (ts.map (map f)).flatMap postorder = (ts.flatMap postorder).map f := by
      rw [List.flatMap_map, List.map_flatMap]
      exact List.flatMap_congr ih
    rw [map, mapAll_eq, postorder, postorder, postorderAll_eq, postorderAll_eq, hts,
      List.map_append]
    rfl

mutual

/-- Trees with comparable labels are comparable. -/
def decEq [DecidableEq α] : (s t : Tree α) → Decidable (s = t)
  | node a ss, node b ts =>
    have := decEqAll ss ts
    decidable_of_iff (a = b ∧ ss = ts) (by rw [node.injEq])

def decEqAll [DecidableEq α] : (ss ts : List (Tree α)) → Decidable (ss = ts)
  | [], [] => isTrue rfl
  | [], _ :: _ => isFalse (fun h => nomatch h)
  | _ :: _, [] => isFalse (fun h => nomatch h)
  | s :: ss, t :: ts =>
    have := decEq s t
    have := decEqAll ss ts
    decidable_of_iff (s = t ∧ ss = ts) (by rw [List.cons.injEq])

end

instance [DecidableEq α] : DecidableEq (Tree α) :=
  decEq

end Tree

/-! ## Outlines -/

/-- How a component stands in the one above it. -/
structure Place where
  name : String
  offset : UInt64
  array : Option ArrayShape
  deriving DecidableEq, Repr

/-- A component and all that is below it, without handles. -/
abbrev Outline : Type := Tree (Place × Kind)

namespace Outline

def place (t : Outline) : Place :=
  t.label.1

def kind (t : Outline) : Kind :=
  t.label.2

end Outline

namespace Model

variable (m : Model)

/-- The place of a node in the component above it. -/
def place (h : Nat) : Place where
  name := m.name h
  offset := (m.node h).offset
  array := (m.node h).array

/-- The outline of a node. -/
def outline (h : Nat) : Outline :=
  (m.subtree h).map fun a => (m.place a, m.kind a)

theorem outline_eq (h : Nat) :
    m.outline h = .node (m.place h, m.kind h) ((m.children h).map m.outline) := by
  unfold outline
  rw [subtree_eq, Tree.map, Tree.mapAll_eq, List.map_map]
  rfl

@[simp] theorem place_outline (h : Nat) : (m.outline h).place = m.place h := by
  rw [outline_eq]
  rfl

@[simp] theorem kind_outline (h : Nat) : (m.outline h).kind = m.kind h := by
  rw [outline_eq]
  rfl

@[simp] theorem children_outline (h : Nat) :
    Tree.children (m.outline h) = (m.children h).map m.outline := by
  rw [outline_eq]
  rfl

theorem postorder_outline (h : Nat) :
    Tree.postorder (m.outline h) = (m.postorder h).map fun a => (m.place a, m.kind a) :=
  Tree.postorder_map _ _

/-- The two nodes look the same, their own places apart. -/
def Alike (a b : Nat) : Prop :=
  m.kind a = m.kind b ∧ (m.children a).map m.outline = (m.children b).map m.outline

instance (a b : Nat) : Decidable (m.Alike a b) :=
  inferInstanceAs (Decidable (_ ∧ _))

variable {m}

theorem outline_inj {a b : Nat} :
    m.outline a = m.outline b ↔ m.place a = m.place b ∧ m.Alike a b := by
  rw [outline_eq, outline_eq, Tree.node.injEq, Prod.mk.injEq, and_assoc]
  exact Iff.rfl

/-- **What being alike means**: the same kind, and as many children, each of which has the place of
its partner and is alike again. -/
theorem alike_iff {a b : Nat} :
    m.Alike a b ↔ m.kind a = m.kind b ∧
      List.Forall₂ (fun c d => m.place c = m.place d ∧ m.Alike c d)
        (m.children a) (m.children b) := by
  have hchildren : (m.children a).map m.outline = (m.children b).map m.outline ↔
      List.Forall₂ (fun c d => m.outline c = m.outline d) (m.children a) (m.children b) := by
    rw [← List.forall₂_eq_eq_eq, List.forall₂_map_left_iff, List.forall₂_map_right_iff]
  unfold Alike
  rw [hchildren]
  simp only [outline_inj]
  exact Iff.rfl

end Model

end RegLayer
