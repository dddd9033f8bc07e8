/-
# `RegLayer.Proofs.Model.Region` — the part of a model below a node

What lies below a node can be said in two ways: by the links upwards, as all nodes that have it in
their lineage (`region`), and by the links downwards, as what a traversal meets (`postorder`).  In
a model whose links agree the two are the same set (`mem_postorder`), the traversal meets each
node once (`nodup_postorder`), and it meets a node after everything below it
(`mem_before_of_mem_ancestors`).  What belongs to a node is one block of the whole
(`infix_of_mem_postorder`).

The region needs no traversal, so results are stated with it, and `classed` are the components of
the region that have a class.  The induction that goes downwards is `induct_children`.
-/
import Mathlib.Data.List.Nodup
import RegLayer.Model.Subtree
import RegLayer.Proofs.Model.Built
import RegLayer.Proofs.Model.Lineage

namespace RegLayer.Model

variable {m : Model}

/-! ## Downwards -/

/-- Induction down a model: what holds of a node whenever it holds of its children holds of every
node. -/
theorem induct_children {P : Nat → Prop} (m : Model)
    (step : ∀ h, (∀ c ∈ m.children h, P c) → P h) (h : Nat) : P h := by
  have key : ∀ n h, m.size - h ≤ n → P h := by
    intro n
    induction n with
    | zero =>
      intro h hn
      refine step h fun c hc => ?_
      have := lt_of_mem_children hc
      omega
    | succ n ih =>
      intro h hn
      refine step h fun c hc => ih c ?_
      have := lt_of_mem_children hc
      omega
  exact key _ h (Nat.le_refl _)

theorem postorder_eq (m : Model) (h : Nat) :
    m.postorder h = (m.children h).flatMap m.postorder ++ [h] := by
  unfold postorder
  rw [subtree_eq, Tree.postorder, Tree.postorderAll_eq, List.flatMap_map]

theorem walk_eq (m : Model) (h : Nat) :
    m.walk h = .enter h :: ((m.children h).flatMap m.walk ++ [.leave h]) := by
  unfold walk
  rw [subtree_eq, Tree.walk, Tree.walkAll_eq, List.flatMap_map]

theorem mem_postorder_self (m : Model) (h : Nat) : h ∈ m.postorder h := by
  rw [postorder_eq]
  exact List.mem_append_right _ List.mem_cons_self

/-- Whatever is put together from what it is for the children of a node, in their order, holds what
it is for any node that a traversal meets as one block. -/
theorem infix_of_mem_postorder {β : Type} {f : Nat → List β}
    (hf : ∀ h, (m.children h).flatMap f <:+: f h) {h a : Nat} (ha : a ∈ m.postorder h) :
    f a <:+: f h := by
  induction h using m.induct_children with
  | step h ih =>
    rw [postorder_eq, List.mem_append, List.mem_singleton] at ha
    rcases ha with ha | rfl
    · obtain ⟨c, hc, hac⟩ := List.mem_flatMap.1 ha
      have hchild : f c <:+: (m.children h).flatMap f := by
        rw [List.flatMap_def]
        exact List.infix_of_mem_flatten (List.mem_map_of_mem hc)
      exact ((ih c hc hac).trans hchild).trans (hf h)
    · exact List.infix_rfl

theorem infix_postorder_of_mem {h a : Nat} (ha : a ∈ m.postorder h) :
    m.postorder a <:+: m.postorder h := by
  refine infix_of_mem_postorder (fun p => ?_) ha
  rw [postorder_eq m p]
  exact (List.prefix_append _ _).isInfix

theorem mem_postorder_trans {top h a : Nat} (hh : h ∈ m.postorder top) (ha : a ∈ m.postorder h) :
    a ∈ m.postorder top :=
  (infix_postorder_of_mem hh).subset ha

theorem mem_postorder_of_mem_children {h p c : Nat} (hp : p ∈ m.postorder h)
    (hc : c ∈ m.children p) : c ∈ m.postorder h := by
  refine mem_postorder_trans hp ?_
  rw [postorder_eq]
  exact List.mem_append_left _ (List.mem_flatMap.2 ⟨c, hc, mem_postorder_self m c⟩)

section Agree

variable (hf : Forest m)

include hf

/-- **Both ways of going below a node agree**: a traversal from `h` meets exactly the nodes that
have `h` in their lineage. -/
theorem mem_postorder {h a : Nat} : a ∈ m.postorder h ↔ h ∈ m.lineage a := by
  constructor
  · intro ha
    induction h using m.induct_children with
    | step h ih =>
      rw [postorder_eq, List.mem_append, List.mem_singleton] at ha
      rcases ha with ha | rfl
      · obtain ⟨c, hc, hac⟩ := List.mem_flatMap.1 ha
        have hp : m.parent c = some h := (hf.mem_children h c).1 hc
        exact mem_lineage_trans (ih c hc hac)
          ((mem_lineage_of_parent hp).2 (Or.inr (mem_lineage_self h)))
      · exact mem_lineage_self a
  · intro hh
    induction a using m.induct_parent with
    | root a hp =>
      rw [lineage_of_root hp, List.mem_singleton] at hh
      exact hh ▸ mem_postorder_self m a
    | child a p hp ih =>
      rcases (mem_lineage_of_parent hp).1 hh with rfl | hh
      · exact mem_postorder_self m h
      · exact mem_postorder_of_mem_children (ih hh) ((hf.mem_children p a).2 hp)

theorem pairwise_disjoint_children (h : Nat) :
    (m.children h).Pairwise fun c d => (m.postorder c).Disjoint (m.postorder d) := by
  refine (hf.children_sorted h).imp_of_mem fun {c d} hc hd hcd => ?_
  intro a hac had
  have heq : c = d := eq_of_siblings ((hf.mem_children h c).1 hc) ((hf.mem_children h d).1 hd)
    ((mem_postorder hf).1 hac) ((mem_postorder hf).1 had)
  omega

theorem mem_flatMap_postorder {a d : Nat} :
    d ∈ (m.children a).flatMap m.postorder ↔ a ∈ m.ancestors d := by
  constructor
  · intro hd
    obtain ⟨c, hc, hdc⟩ := List.mem_flatMap.1 hd
    have hac : a ∈ m.ancestors c := mem_ancestors_of_parent ((hf.mem_children a c).1 hc)
    exact ancestors_subset ((mem_postorder hf).1 hdc) hac
  · intro had
    have hd : d ∈ m.postorder a := (mem_postorder hf).2 (List.mem_cons_of_mem d had)
    rw [postorder_eq, List.mem_append, List.mem_singleton] at hd
    exact hd.resolve_right (Nat.ne_of_gt (lt_of_mem_ancestors had))

/-- **A traversal meets no node twice.** -/
theorem nodup_postorder (h : Nat) : (m.postorder h).Nodup := by
  induction h using m.induct_children with
  | step h ih =>
    rw [postorder_eq]
    refine List.nodup_append'.2 ⟨?_, List.nodup_singleton h, ?_⟩
    · exact List.nodup_flatMap.2 ⟨ih, pairwise_disjoint_children hf h⟩
    · intro a ha hah
      obtain rfl := List.mem_singleton.1 hah
      exact Nat.lt_irrefl a (lt_of_mem_ancestors ((mem_flatMap_postorder hf).1 ha))

end Agree

/-! ## Children first -/

/-- Every node of the list stands after all its children. -/
def ChildrenFirst (m : Model) (l : List Nat) : Prop :=
  ∀ done h rest, l = done ++ h :: rest → ∀ c ∈ m.children h, c ∈ done

theorem ChildrenFirst.of_append {l₁ l₂ : List Nat} (h : ChildrenFirst m (l₁ ++ l₂)) :
    ChildrenFirst m l₁ := by
  intro done p rest heq
  exact h done p (rest ++ l₂) (by rw [heq]; simp)

theorem ChildrenFirst.mem_of_concat {l : List Nat} {p c : Nat} (h : ChildrenFirst m (l ++ [p]))
    (hc : c ∈ m.children p) : c ∈ l :=
  h l p [] rfl c hc

theorem mem_of_pair_sublist {c p : Nat} {done rest : List Nat} (hnd : (done ++ p :: rest).Nodup)
    (h : [c, p].Sublist (done ++ p :: rest)) : c ∈ done := by
  have hp : p ∉ rest := (List.nodup_cons.1 (List.nodup_append'.1 hnd).2.1).1
  obtain ⟨l₁, l₂, hl, h₁, h₂⟩ := List.sublist_append_iff.1 h
  cases l₁ with
  | nil =>
    -- Both would stand behind `done`, and then `p` would stand in `rest`.
    subst hl
    have hrest : [p].Sublist rest := by
      cases h₂ with
      | cons _ h₂ => exact (List.sublist_cons_self c [p]).trans h₂
      | cons_cons _ h₂ => exact h₂
    exact absurd (List.singleton_sublist.1 hrest) hp
  | cons d l₁ =>
    obtain rfl : c = d := (List.cons.inj hl).1
    exact h₁.subset List.mem_cons_self

/-- **A traversal meets a node after all that is below it.** -/
theorem mem_before_of_mem_ancestors (hf : Forest m) {h a d : Nat} {done rest : List Nat}
    (heq : m.postorder h = done ++ a :: rest) (hd : a ∈ m.ancestors d) : d ∈ done := by
  have hnd : (done ++ a :: rest).Nodup := heq ▸ nodup_postorder hf h
  have ha : a ∈ m.postorder h := by
    rw [heq]
    exact List.mem_append_right _ List.mem_cons_self
  -- Inside the traversal of `a`, which is a block of the whole, `a` comes last.
  have hpair : [d, a].Sublist (m.postorder a) := by
    rw [postorder_eq]
    exact (List.singleton_sublist.2 ((mem_flatMap_postorder hf).2 hd)).append
      (List.Sublist.refl [a])
  have hsub : [d, a].Sublist (done ++ a :: rest) :=
    heq ▸ hpair.trans (infix_postorder_of_mem ha).sublist
  exact mem_of_pair_sublist hnd hsub

/-- **Children come first in a traversal.** -/
theorem childrenFirst_postorder (hf : Forest m) (h : Nat) : ChildrenFirst m (m.postorder h) := by
  intro done p rest heq c hc
  exact mem_before_of_mem_ancestors hf heq
    (mem_ancestors_of_parent ((hf.mem_children p c).1 hc))

/-! ## The region of a node -/

/-- The nodes that have `top` in their lineage, `top` among them, in the order of their handles. -/
def region (m : Model) (top : Nat) : List Nat :=
  (List.range m.size).filter fun h => top ∈ m.lineage h

theorem mem_region {top h : Nat} : h ∈ m.region top ↔ h < m.size ∧ top ∈ m.lineage h := by
  unfold region
  rw [List.mem_filter, List.mem_range, decide_eq_true_iff]

theorem nodup_region (m : Model) (top : Nat) : (m.region top).Nodup :=
  List.nodup_range.filter _

theorem mem_region_iff_mem_postorder (hf : Forest m) {top h : Nat} (htop : top < m.size) :
    h ∈ m.region top ↔ h ∈ m.postorder top := by
  rw [mem_region, mem_postorder hf]
  refine ⟨And.right, fun hh => ⟨?_, hh⟩⟩
  cases hp : m.parent h with
  | none =>
    rw [lineage_of_root hp, List.mem_singleton] at hh
    exact hh ▸ htop
  | some p => exact lt_size_of_parent hp

/-- The components of a region that get a class. -/
def classed (m : Model) (top : Nat) : List Nat :=
  (m.region top).filter fun h => (m.kind h).hasClass

theorem mem_classed {top h : Nat} :
    h ∈ m.classed top ↔ h ∈ m.region top ∧ (m.kind h).hasClass = true :=
  List.mem_filter

theorem lt_size_of_mem_classed {top h : Nat} (hh : h ∈ m.classed top) : h < m.size :=
  (mem_region.1 (mem_classed.1 hh).1).1

theorem mem_classed_self {top : Nat} (hk : (m.kind top).isAddrmap = true) :
    top ∈ m.classed top := by
  refine mem_classed.2 ⟨mem_region.2 ⟨lt_size_of_isAddrmap hk, mem_lineage_self top⟩, ?_⟩
  cases h : m.kind top with
  | addrmap endianness bridge => rfl
  | regfile | reg _ _ | mem _ _ _ | field _ | signal =>
    rw [h] at hk
    cases hk

theorem nodup_classed (m : Model) (top : Nat) : (m.classed top).Nodup :=
  (nodup_region m top).filter _

theorem perm_classed (hf : Forest m) {top : Nat} (htop : top < m.size) :
    ((m.postorder top).filter fun h => (m.kind h).hasClass).Perm (m.classed top) := by
  refine (List.perm_ext_iff_of_nodup ((nodup_postorder hf top).filter _) (nodup_classed m top)).2 ?_
  intro h
  rw [mem_classed, List.mem_filter, mem_region_iff_mem_postorder hf htop]

end RegLayer.Model
