/-
# `RegLayer.Proofs.Model.Numbered` — handles in the order of the description

Planting goes through the trees of a description from the top down and from the left to the right,
and the next handle is always the number of nodes so far.  So below a node that was planted the
handles are consecutive in the order of a document (`numbered_graft`), and the handles of the
whole model, in that order, are simply `0`, `1`, `2`, … (`flatMap_preorder_roots`).

This is how a place in a description becomes a handle of the model: the component that stands at
some place in the order of the document has that place as its handle.
-/
import RegLayer.Proofs.Model.Planted

namespace RegLayer.Model

variable {m m' : Model} {under : Option Nat}

/-- The handles of a node and all that is below it, each before those below it. -/
def preorder (m : Model) (h : Nat) : List Nat :=
  (m.subtree h).preorder

theorem preorderAll_subtree (m : Model) (hs : List Nat) :
    Tree.preorderAll (hs.map m.subtree) = hs.flatMap m.preorder := by
  rw [Tree.preorderAll_eq, List.flatMap_map]
  rfl

theorem preorder_eq (m : Model) (h : Nat) :
    m.preorder h = h :: (m.children h).flatMap m.preorder := by
  show (m.subtree h).preorder = _
  rw [subtree_eq, Tree.preorder, preorderAll_subtree]

theorem preorder_congr {first : Nat}
    (hchildren : ∀ h, first ≤ h → h < m.size → m'.children h = m.children h) {h : Nat}
    (hfirst : first ≤ h) (hsize : h < m.size) : m'.preorder h = m.preorder h := by
  induction h using m.induct_children with
  | step h ih =>
    rw [preorder_eq, preorder_eq, hchildren h hfirst hsize]
    refine congrArg _ (List.flatMap_congr ?_)
    intro c hc
    have hlink := lt_of_mem_children hc
    exact ih c hc (by omega) hlink.2

/-! ## Planting -/

/-- What was added below a node, or as top-level trees, has the handles from the size on, in the
order of a document. -/
def Numbered (m : Model) (under : Option Nat) (m' : Model) : Prop :=
  ∃ hs, m'.below under = m.below under ++ hs ∧
    hs.flatMap m'.preorder = List.range' m.size (m'.size - m.size)

theorem Numbered.node {n : Node} {ts : List (Tree Node)}
    (hu : ∀ p, under = some p → p < m.size)
    (hp : Planted (m.add under n) (some m.size) ts m')
    (hnum : Numbered (m.add under n) (some m.size) m') : Numbered m under m' := by
  have hsize : (m.add under n).size = m.size + 1 := size_add n hu
  have hle : (m.add under n).size ≤ m'.size := hp.size_le
  have hnew : under ≠ some m.size := fun heq => Nat.lt_irrefl _ (hu m.size heq)
  have hold : ∀ h, under = some h → h < (m.add under n).size := by
    intro h hh
    have := hu h hh
    omega
  obtain ⟨hs, hbelow, hrest⟩ := hnum
  have hchildren : m'.children m.size = hs := by
    rw [below_add hu, if_neg hnew.symm] at hbelow
    exact hbelow.trans (by simp [below, children_of_size_le])
  refine ⟨[m.size], ?_, ?_⟩
  · rw [hp.below_eq under hnew hold, below_add hu, if_pos rfl]
  · rw [List.flatMap_singleton, preorder_eq, hchildren, hrest, hsize]
    have hcount : m'.size - m.size = (m'.size - (m.size + 1)) + 1 := by omega
    rw [hcount, List.range'_succ]

theorem Numbered.append {m'' : Model} {us : List (Tree Node)}
    (hu : ∀ p, under = some p → p < m.size) (hle : m.size ≤ m'.size)
    (hp : Planted m' under us m'') (h₁ : Numbered m under m') (h₂ : Numbered m' under m'') :
    Numbered m under m'' := by
  obtain ⟨hs, hbelow, hfirst⟩ := h₁
  obtain ⟨gs, hbelow', hrest⟩ := h₂
  have hle' : m'.size ≤ m''.size := hp.size_le
  refine ⟨hs ++ gs, by rw [hbelow', hbelow, List.append_assoc], ?_⟩
  -- What was planted first is not below the place where the rest went.
  have hkept : hs.flatMap m''.preorder = hs.flatMap m'.preorder := by
    refine List.flatMap_congr ?_
    intro h hh
    have hmem : h ∈ List.range' m.size (m'.size - m.size) := by
      rw [← hfirst]
      exact List.mem_flatMap.2 ⟨h, hh, by rw [preorder_eq]; exact List.mem_cons_self⟩
    have hrange := List.mem_range'_1.1 hmem
    have hchildren : ∀ g, m.size ≤ g → g < m'.size → m''.children g = m'.children g := by
      intro g hg hlt
      refine hp.below_eq (some g) ?_ ?_
      · intro heq
        have := hu g heq.symm
        omega
      · intro k hk
        obtain rfl := Option.some.inj hk
        exact hlt
    exact preorder_congr hchildren hrange.1 (by omega)
  have hjoin := List.range'_append_1 (s := m.size) (m := m'.size - m.size)
    (n := m''.size - m'.size)
  rw [Nat.add_sub_cancel' hle] at hjoin
  have hcount : (m'.size - m.size) + (m''.size - m'.size) = m''.size - m.size := by omega
  rw [List.flatMap_append, hkept, hfirst, hrest, hjoin, hcount]

mutual

theorem numbered_graft (m : Model) (under : Option Nat) :
    ∀ t : Tree Node, (∀ p, under = some p → p < m.size) → Numbered m under (m.graft under t)
  | .node n ts, hu => by
    have hsize := size_add n hu
    have hbelow : ∀ p, some m.size = some p → p < (m.add under n).size := by
      intro p hp
      have := Option.some.inj hp
      omega
    exact .node hu (planted_graftAll _ _ ts hbelow) (numbered_graftAll _ _ ts hbelow)

theorem numbered_graftAll (m : Model) (under : Option Nat) :
    ∀ ts : List (Tree Node), (∀ p, under = some p → p < m.size) →
      Numbered m under (m.graftAll under ts)
  | [], _ => ⟨[], (List.append_nil _).symm, by simp [graftAll]⟩
  | t :: ts, hu => by
    have hfirst := planted_graft m under t hu
    have hafter : ∀ p, under = some p → p < (m.graft under t).size := by
      intro p hp
      exact Nat.lt_of_lt_of_le (hu p hp) hfirst.size_le
    exact .append hu hfirst.size_le (planted_graftAll _ under ts hafter)
      (numbered_graft m under t hu) (numbered_graftAll _ under ts hafter)

end

/-! ## Models from trees -/

/-- **The handles of a description's model, in the order of a document, are the numbers up to its
size.** -/
theorem flatMap_preorder_roots (d : Declarations) (ts : List (Tree Node)) :
    (ofForest d ts).roots.toList.flatMap (ofForest d ts).preorder =
      List.range (ofForest d ts).size := by
  obtain ⟨hs, hbelow, hnum⟩ := numbered_graftAll { empty with labels := d.labels } none ts
    fun _ hp => nomatch hp
  have hroots : (ofForest d ts).roots.toList = hs := hbelow
  rw [hroots, List.range_eq_range']
  exact hnum

end RegLayer.Model
