/-
# `RegLayer.Proofs.Model.Planted` — reading back what was planted

A reader makes trees of components, and planting them makes a model.  `unfold` reads the tree back
from a handle.  Nothing is lost on the way: the tree read back from a handle is one that was
planted, or a part of one, and every handle of the model is the place of such a part
(`exists_unfold_ofForest`).

Planting goes on below nodes that are there already, so what carries the proof is a frame: trees
planted below a node leave all other nodes, and the trees read back from them, as they were
(`Planted`, by induction over a tree and a list of trees).  Whether two components are alike can
then be asked of the trees (`alike_iff_unfold`).
-/
import RegLayer.Proofs.Model.Alike
import RegLayer.Proofs.Model.Region

namespace RegLayer

/-! ## Parts of trees -/

/-- The first tree stands somewhere in the second, which may be the whole of it. -/
inductive Tree.Subtree {α : Type} (s : Tree α) : Tree α → Prop
  | self : Subtree s s
  | child {a : α} {t : Tree α} {ts : List (Tree α)} :
      t ∈ ts → Subtree s t → Subtree s (.node a ts)

theorem Tree.subtree_node_iff {α : Type} {s : Tree α} {a : α} {ts : List (Tree α)} :
    s.Subtree (.node a ts) ↔ s = .node a ts ∨ ∃ t ∈ ts, s.Subtree t := by
  constructor
  · intro h
    cases h with
    | self => exact Or.inl rfl
    | child ht hs => exact Or.inr ⟨_, ht, hs⟩
  · rintro (rfl | ⟨t, ht, hs⟩)
    · exact .self
    · exact .child ht hs

theorem Tree.sizeOf_lt_of_mem {α : Type} [SizeOf α] {a : α} {t : Tree α} {ts : List (Tree α)}
    (ht : t ∈ ts) : sizeOf t < sizeOf (Tree.node a ts) := by
  have hmem := List.sizeOf_lt_of_mem ht
  rw [Tree.node.sizeOf_spec]
  omega

theorem Tree.Subtree.sizeOf_le {α : Type} [SizeOf α] {s t : Tree α} (h : s.Subtree t) :
    sizeOf s ≤ sizeOf t := by
  induction h with
  | self => exact Nat.le_refl _
  | child ht _ ih => exact Nat.le_of_lt (Nat.lt_of_le_of_lt ih (sizeOf_lt_of_mem ht))

/-- What an outline keeps of a node. -/
def Node.look (n : Node) : Place × Kind :=
  (⟨n.name, n.offset, n.array⟩, n.kind)

/-- The outline of a tree of components. -/
def Tree.outline (t : Tree Node) : Outline :=
  t.map Node.look

theorem Tree.outline_node (n : Node) (ts : List (Tree Node)) :
    Tree.outline (.node n ts) = .node n.look (ts.map Tree.outline) := by
  rw [Tree.outline, Tree.map, Tree.mapAll_eq]
  rfl

namespace Model

variable {m m' m'' : Model} {under : Option Nat}

/-! ## Reading back -/

/-- The components below a node as a tree, without the handles. -/
def unfold (m : Model) (h : Nat) : Tree Node :=
  (m.subtree h).map m.node

theorem unfold_eq (m : Model) (h : Nat) :
    m.unfold h = .node (m.node h) ((m.children h).map m.unfold) := by
  rw [unfold, subtree_eq, Tree.map, Tree.mapAll_eq, List.map_map]
  rfl

theorem label_unfold (m : Model) (h : Nat) : (m.unfold h).label = m.node h := by
  rw [unfold_eq, Tree.label_node]

theorem exists_of_subtree_unfold {h : Nat} {s : Tree Node} (hs : s.Subtree (m.unfold h)) :
    ∃ g, s = m.unfold g := by
  generalize ht : m.unfold h = t at hs
  induction hs generalizing h with
  | self => exact ⟨h, ht.symm⟩
  | child hv _ ih =>
    rw [unfold_eq] at ht
    cases ht
    obtain ⟨c, _, hc⟩ := List.mem_map.1 hv
    exact ih hc

theorem unfold_congr {first : Nat}
    (hnode : ∀ h, first ≤ h → h < m.size → m'.node h = m.node h)
    (hchildren : ∀ h, first ≤ h → h < m.size → m'.children h = m.children h) {h : Nat}
    (hfirst : first ≤ h) (hsize : h < m.size) : m'.unfold h = m.unfold h := by
  induction h using m.induct_children with
  | step h ih =>
    rw [unfold_eq, unfold_eq, hnode h hfirst hsize, hchildren h hfirst hsize]
    refine congrArg _ (List.map_congr_left fun c hc => ?_)
    have hlink := lt_of_mem_children hc
    exact ih c hc (by omega) hlink.2

/-! ## Outlines of what is read back -/

theorem outline_unfold (m : Model) (h : Nat) : (m.unfold h).outline = m.outline h := by
  induction h using m.induct_children with
  | step h ih =>
    rw [unfold_eq, Tree.outline_node, outline_eq, List.map_map]
    exact congrArg _ (List.map_congr_left ih)

theorem alike_iff_unfold {a b : Nat} :
    m.Alike a b ↔ (m.unfold a).label.kind = (m.unfold b).label.kind ∧
      (m.unfold a).children.map Tree.outline = (m.unfold b).children.map Tree.outline := by
  have hchildren : ∀ h, (m.unfold h).children.map Tree.outline = (m.children h).map m.outline := by
    intro h
    rw [unfold_eq, Tree.children_node, List.map_map]
    exact List.map_congr_left fun c _ => outline_unfold m c
  rw [hchildren, hchildren, label_unfold, label_unfold]
  exact Iff.rfl

/-! ## Planting -/

/-- The second model is the first with these trees planted below a node, or as top-level trees:
everything else is as it was, and what was added are the trees. -/
structure Planted (m : Model) (under : Option Nat) (ts : List (Tree Node)) (m' : Model) : Prop where
  size_le : m.size ≤ m'.size
  node_eq : ∀ h, h < m.size → m'.node h = m.node h
  below_eq : ∀ u, u ≠ under → (∀ h, u = some h → h < m.size) → m'.below u = m.below u
  added : ∃ hs, m'.below under = m.below under ++ hs ∧ (∀ h ∈ hs, m.size ≤ h ∧ h < m'.size) ∧
    hs.map m'.unfold = ts
  parts : ∀ h, m.size ≤ h → h < m'.size → ∃ t ∈ ts, (m'.unfold h).Subtree t

theorem Planted.nil (m : Model) (under : Option Nat) : Planted m under [] m where
  size_le := Nat.le_refl _
  node_eq _ _ := rfl
  below_eq _ _ _ := rfl
  added := ⟨[], (List.append_nil _).symm, fun _ h => absurd h List.not_mem_nil, rfl⟩
  parts _ hle hlt := absurd hlt (Nat.not_lt.2 hle)

theorem Planted.unfold_eq {us : List (Tree Node)} (hu : ∀ p, under = some p → p < m.size)
    (hp : Planted m' under us m'') {h : Nat} (hle : m.size ≤ h) (hlt : h < m'.size) :
    m''.unfold h = m'.unfold h := by
  refine unfold_congr (fun g _ hg => hp.node_eq g hg) (fun g hmg hg => ?_) hle hlt
  refine hp.below_eq (some g) (fun heq => ?_) fun k hk => Option.some.inj hk ▸ hg
  have := hu g heq.symm
  omega

theorem Planted.append {ts us : List (Tree Node)} (hu : ∀ p, under = some p → p < m.size)
    (h₁ : Planted m under ts m') (h₂ : Planted m' under us m'') :
    Planted m under (ts ++ us) m'' where
  size_le := Nat.le_trans h₁.size_le h₂.size_le
  node_eq h hh := (h₂.node_eq h (Nat.lt_of_lt_of_le hh h₁.size_le)).trans (h₁.node_eq h hh)
  below_eq u hne hlt :=
    (h₂.below_eq u hne fun h hh => Nat.lt_of_lt_of_le (hlt h hh) h₁.size_le).trans
      (h₁.below_eq u hne hlt)
  added := by
    obtain ⟨hs, hbelow, hnew, hts⟩ := h₁.added
    obtain ⟨gs, hbelow', hnew', hus⟩ := h₂.added
    have h₁le := h₁.size_le
    have h₂le := h₂.size_le
    refine ⟨hs ++ gs, ?_, ?_, ?_⟩
    · rw [hbelow', hbelow, List.append_assoc]
    · intro h hh
      rcases List.mem_append.1 hh with hh | hh
      · have := hnew h hh
        omega
      · have := hnew' h hh
        omega
    · rw [List.map_append, hus, ← hts]
      refine congrArg (· ++ us) (List.map_congr_left fun h hh => ?_)
      exact h₂.unfold_eq hu (hnew h hh).1 (hnew h hh).2
  parts h hle hlt := by
    by_cases hh : h < m'.size
    · obtain ⟨t, ht, hsub⟩ := h₁.parts h hle hh
      exact ⟨t, List.mem_append_left _ ht, (h₂.unfold_eq hu hle hh).symm ▸ hsub⟩
    · obtain ⟨t, ht, hsub⟩ := h₂.parts h (Nat.not_lt.1 hh) hlt
      exact ⟨t, List.mem_append_right _ ht, hsub⟩

section Node

variable {n : Node} {ts : List (Tree Node)} (hu : ∀ p, under = some p → p < m.size)
  (hp : Planted (m.add under n) (some m.size) ts m')

include hu hp

theorem Planted.unfold_top : m'.unfold m.size = .node n ts := by
  have hsize : (m.add under n).size = m.size + 1 := size_add n hu
  obtain ⟨hs, hbelow, _, hts⟩ := hp.added
  have hnode : m'.node m.size = n := by
    rw [hp.node_eq m.size (by omega), node_add hu, if_pos rfl]
  have hnone : (m.add under n).below (some m.size) = [] := by
    have hne : some m.size ≠ under := fun heq => Nat.lt_irrefl _ (hu m.size heq.symm)
    rw [below_add hu, if_neg hne]
    exact children_of_size_le (Nat.le_refl _)
  have hchildren : m'.children m.size = hs := by
    rw [hnone, List.nil_append] at hbelow
    exact hbelow
  rw [Model.unfold_eq, hnode, hchildren, hts]

theorem Planted.node : Planted m under [.node n ts] m' where
  size_le := by
    have := size_add n hu
    have := hp.size_le
    omega
  node_eq h hh := by
    have := size_add n hu
    rw [hp.node_eq h (by omega), node_add hu, if_neg (Nat.ne_of_lt hh)]
  below_eq u hne hlt := by
    have hsize := size_add n hu
    have hnew : u ≠ some m.size := fun heq => Nat.lt_irrefl _ (hlt m.size heq)
    have hold : ∀ h, u = some h → h < (m.add under n).size := by
      intro h hh
      have := hlt h hh
      omega
    rw [hp.below_eq u hnew hold, below_add hu, if_neg hne]
  added := by
    have hsize := size_add n hu
    have hle := hp.size_le
    have hnew : under ≠ some m.size := fun heq => Nat.lt_irrefl _ (hu m.size heq)
    have hold : ∀ h, under = some h → h < (m.add under n).size := by
      intro h hh
      have := hu h hh
      omega
    refine ⟨[m.size], ?_, ?_, ?_⟩
    · rw [hp.below_eq under hnew hold, below_add hu, if_pos rfl]
    · intro h hh
      obtain rfl := List.mem_singleton.1 hh
      omega
    · rw [List.map_singleton, hp.unfold_top hu]
  -- A new handle is that of the node, or one of those planted below it.
  parts h hmh hh := by
    have hsize := size_add n hu
    refine ⟨_, List.mem_singleton_self _, ?_⟩
    by_cases heq : h = m.size
    · rw [heq, hp.unfold_top hu]
      exact .self
    · obtain ⟨t, ht, hsub⟩ := hp.parts h (by omega) hh
      exact .child ht hsub

end Node

mutual

theorem planted_graft (m : Model) (under : Option Nat) :
    ∀ t : Tree Node, (∀ p, under = some p → p < m.size) → Planted m under [t] (m.graft under t)
  | .node n ts, hu => by
    have hsize := size_add n hu
    refine Planted.node hu (planted_graftAll _ _ ts fun p hp => ?_)
    have := Option.some.inj hp
    omega

theorem planted_graftAll (m : Model) (under : Option Nat) :
    ∀ ts : List (Tree Node), (∀ p, under = some p → p < m.size) →
      Planted m under ts (m.graftAll under ts)
  | [], _ => Planted.nil m under
  | t :: ts, hu => by
    have hfirst := planted_graft m under t hu
    have hrest := planted_graftAll (m.graft under t) under ts fun p hp =>
      Nat.lt_of_lt_of_le (hu p hp) hfirst.size_le
    exact hfirst.append hu hrest

end

/-! ## Models from trees -/

section OfForest

variable (d : Declarations) (ts : List (Tree Node))

theorem planted_ofForest :
    Planted { empty with labels := d.labels } none ts (ofForest d ts) :=
  planted_graftAll _ none ts fun _ hp => nomatch hp

theorem map_unfold_roots_ofForest :
    (ofForest d ts).roots.toList.map (ofForest d ts).unfold = ts := by
  obtain ⟨hs, hbelow, _, hts⟩ := (planted_ofForest d ts).added
  have hroots : (ofForest d ts).roots.toList = hs := hbelow
  rw [hroots]
  exact hts

variable {d ts}

/-- **Every handle of a description's model is the place of a part of the description.** -/
theorem exists_unfold_ofForest {h : Nat} (hh : h < (ofForest d ts).size) :
    ∃ t ∈ ts, ((ofForest d ts).unfold h).Subtree t :=
  (planted_ofForest d ts).parts h (Nat.zero_le _) hh

theorem size_ofForest_pos {t : Tree Node} (ht : t ∈ ts) : 0 < (ofForest d ts).size := by
  rw [← map_unfold_roots_ofForest d ts] at ht
  obtain ⟨h, hroot, _⟩ := List.mem_map.1 ht
  have := (((built_ofForest d ts).forest.mem_roots h).1 hroot).1
  omega

theorem zero_mem_roots_ofForest (t : Tree Node) : 0 ∈ (ofForest d [t]).roots.toList := by
  have hpos : 0 < (ofForest d [t]).size := size_ofForest_pos (List.mem_singleton_self t)
  have hparent : (ofForest d [t]).parent 0 = none :=
    Option.eq_none_iff_forall_ne_some.2 fun p hp => Nat.not_lt_zero p (parent_lt hp)
  exact ((built_ofForest d [t]).forest.mem_roots 0).2 ⟨hpos, hparent⟩

theorem roots_ofForest_singleton (t : Tree Node) : (ofForest d [t]).roots.toList = [0] := by
  have hlen : (ofForest d [t]).roots.toList.length = 1 := by
    simpa using congrArg List.length (map_unfold_roots_ofForest d [t])
  obtain ⟨r, hr⟩ := List.length_eq_one_iff.1 hlen
  have hzero : 0 ∈ (ofForest d [t]).roots.toList := zero_mem_roots_ofForest t
  rw [hr, List.mem_singleton] at hzero
  rw [hr, hzero]

theorem unfold_zero_ofForest (t : Tree Node) : (ofForest d [t]).unfold 0 = t := by
  have hmem := List.mem_map_of_mem (f := (ofForest d [t]).unfold)
    (zero_mem_roots_ofForest (d := d) t)
  rw [map_unfold_roots_ofForest] at hmem
  exact List.mem_singleton.1 hmem

theorem eq_zero_of_unfold_eq {t : Tree Node} {h : Nat} (hh : h < (ofForest d [t]).size)
    (heq : (ofForest d [t]).unfold h = t) : h = 0 := by
  have hf : (ofForest d [t]).Forest := (built_ofForest d [t]).forest
  cases hparent : (ofForest d [t]).parent h with
  | none =>
    have hroot : h ∈ (ofForest d [t]).roots.toList := (hf.mem_roots h).2 ⟨hh, hparent⟩
    rw [roots_ofForest_singleton, List.mem_singleton] at hroot
    exact hroot
  | some p =>
    -- Below the top a tree is smaller than the whole.
    have hp : p < (ofForest d [t]).size := Nat.lt_trans (parent_lt hparent) hh
    obtain ⟨u, hu, hsub⟩ := exists_unfold_ofForest hp
    obtain rfl := List.mem_singleton.1 hu
    have hle := hsub.sizeOf_le
    have hchild := List.mem_map_of_mem (f := (ofForest d [u]).unfold)
      ((hf.mem_children p h).2 hparent)
    have hlt := Tree.sizeOf_lt_of_mem (a := (ofForest d [u]).node p) hchild
    rw [← unfold_eq, heq] at hlt
    omega

end OfForest

end Model

end RegLayer
