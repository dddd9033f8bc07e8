/-
# `RegLayer.Proofs.Model.Built` — models made step by step

The links of a model are kept in three places: the parent of each entry, its list of children, and
the list of roots.  Nothing in an entry makes the three agree; what makes them agree is that every
model comes out of the building operations.  `Built` says that it does, `Forest` says how the
links then hang together, and `Built.forest` is the induction over the steps between the two.

A new node goes to the end of one list, be it the list of roots or that of a node's children, and
leaves all else alone (`OneMore`).  Roots and children are therefore treated as one family of
lists, those `below` a node or below nothing, and that the links agree is said of all of them at
once (`forest_iff`).  One step lemma (`Forest.add`) is then enough.

Models that were read from a description are built (`built_ofForest`), so what is proved of built
models holds of every design.
-/
import RegLayer.Model.Forest

namespace RegLayer.Model

/-- The models that the building operations make. -/
inductive Built : Model → Prop
  | empty : Built empty
  | declare {m : Model} (label : String) : Built m → Built (m.declare label).2
  | addRoot {m : Model} (n : Node) : Built m → Built (m.addRoot n)
  | addChild {m : Model} {p : Nat} (n : Node) : Built m → p < m.size → Built (m.addChild p n)

/-- Parents, children and roots of a model agree, and what was added later comes later. -/
structure Forest (m : Model) : Prop where
  mem_children : ∀ p c, c ∈ m.children p ↔ m.parent c = some p
  children_sorted : ∀ p, (m.children p).Pairwise (· < ·)
  mem_roots : ∀ h, h ∈ m.roots.toList ↔ h < m.size ∧ m.parent h = none
  roots_sorted : m.roots.toList.Pairwise (· < ·)

variable {m : Model}

/-! ## Handles that a model does not hold -/

theorem parent_of_size_le {h : Nat} (hh : m.size ≤ h) : m.parent h = none := by
  unfold parent
  rw [Array.getElem?_eq_none hh]
  rfl

theorem children_of_size_le {h : Nat} (hh : m.size ≤ h) : m.children h = [] := by
  unfold children
  rw [Array.getElem?_eq_none hh]
  rfl

theorem lt_size_of_parent {h p : Nat} (hp : m.parent h = some p) : h < m.size := by
  by_cases hh : h < m.size
  · exact hh
  · rw [parent_of_size_le (by omega)] at hp
    cases hp

theorem lt_size_of_kind_ne {h : Nat} (hk : m.kind h ≠ .signal) : h < m.size := by
  by_cases hh : h < m.size
  · exact hh
  · -- The blank node is a signal.
    unfold kind node at hk
    rw [Array.getElem?_eq_none (by unfold size at hh; omega)] at hk
    exact absurd rfl hk

theorem lt_size_of_isAddrmap {h : Nat} (hk : (m.kind h).isAddrmap = true) : h < m.size := by
  refine lt_size_of_kind_ne fun hsignal => ?_
  rw [hsignal] at hk
  cases hk

/-! ## What a step changes -/

theorem getElem?_addRoot (n : Node) (h : Nat) :
    (m.addRoot n).entries[h]? = if h = m.size then some ⟨n, none, #[]⟩ else m.entries[h]? :=
  Array.getElem?_push

theorem node_addRoot (n : Node) (h : Nat) :
    (m.addRoot n).node h = if h = m.size then n else m.node h := by
  unfold node
  rw [getElem?_addRoot]
  split <;> rfl

theorem parent_addRoot (n : Node) (h : Nat) : (m.addRoot n).parent h = m.parent h := by
  by_cases hh : h = m.size
  · rw [parent_of_size_le (m := m) (Nat.le_of_eq hh.symm)]
    unfold parent
    rw [getElem?_addRoot, if_pos hh]
    rfl
  · unfold parent
    rw [getElem?_addRoot, if_neg hh]

theorem children_addRoot (n : Node) (h : Nat) : (m.addRoot n).children h = m.children h := by
  by_cases hh : h = m.size
  · rw [children_of_size_le (m := m) (Nat.le_of_eq hh.symm)]
    unfold children
    rw [getElem?_addRoot, if_pos hh]
    rfl
  · unfold children
    rw [getElem?_addRoot, if_neg hh]

theorem roots_addRoot (n : Node) : (m.addRoot n).roots.toList = m.roots.toList ++ [m.size] :=
  Array.toList_push

section AddChild

variable {p : Nat}

theorem entries_addChild (hp : p < m.size) (n : Node) :
    (m.addChild p n).entries =
      (m.entries.modify p (·.adopt m.size)).push ⟨n, some p, #[]⟩ := by
  unfold addChild
  exact congrArg entries (dif_pos hp)

theorem roots_addChild (n : Node) : (m.addChild p n).roots = m.roots := by
  unfold addChild
  split <;> rfl

theorem getElem?_addChild (hp : p < m.size) (n : Node) (h : Nat) :
    (m.addChild p n).entries[h]? =
      if h = m.size then some ⟨n, some p, #[]⟩
      else if h = p then m.entries[h]?.map (·.adopt m.size) else m.entries[h]? := by
  have hsize : (m.entries.modify p (·.adopt m.size)).size = m.size := Array.size_modify
  rw [entries_addChild hp, Array.getElem?_push, hsize]
  by_cases hh : h = m.size
  · rw [if_pos hh, if_pos hh]
  · rw [if_neg hh, if_neg hh, Array.getElem?_modify]
    by_cases hhp : h = p
    · rw [if_pos hhp, if_pos hhp.symm]
    · rw [if_neg hhp, if_neg (Ne.symm hhp)]

theorem node_addChild (hp : p < m.size) (n : Node) (h : Nat) :
    (m.addChild p n).node h = if h = m.size then n else m.node h := by
  unfold node
  rw [getElem?_addChild hp]
  split
  · rfl
  · split
    · cases m.entries[h]? <;> rfl
    · rfl

theorem parent_addChild (hp : p < m.size) (n : Node) (h : Nat) :
    (m.addChild p n).parent h = if h = m.size then some p else m.parent h := by
  unfold parent
  rw [getElem?_addChild hp]
  split
  · rfl
  · split
    · cases m.entries[h]? <;> rfl
    · rfl

theorem children_addChild (hp : p < m.size) (n : Node) (h : Nat) :
    (m.addChild p n).children h = if h = p then m.children h ++ [m.size] else m.children h := by
  unfold children
  rw [getElem?_addChild hp]
  by_cases hh : h = m.size
  · have hne : h ≠ p := by omega
    rw [if_pos hh, if_neg hne, Array.getElem?_eq_none (by unfold size at hh; omega)]
    rfl
  · rw [if_neg hh]
    by_cases hhp : h = p
    · subst hhp
      rw [if_pos rfl, if_pos rfl, Array.getElem?_eq_getElem hp]
      simp [Entry.adopt]
    · rw [if_neg hhp, if_neg hhp]

end AddChild

/-! ## One more node -/

/-- The nodes just below a node, or the top-level nodes. -/
def below (m : Model) : Option Nat → List Nat
  | none => m.roots.toList
  | some p => m.children p

section Add

variable {under : Option Nat}

theorem size_add (n : Node) (hu : ∀ p, under = some p → p < m.size) :
    (m.add under n).size = m.size + 1 := by
  cases under with
  | none => exact size_addRoot m n
  | some p => exact size_addChild n (hu p rfl)

theorem node_add (hu : ∀ p, under = some p → p < m.size) (n : Node) (h : Nat) :
    (m.add under n).node h = if h = m.size then n else m.node h := by
  cases under with
  | none => exact node_addRoot n h
  | some p => exact node_addChild (hu p rfl) n h

theorem parent_add (hu : ∀ p, under = some p → p < m.size) (n : Node) (h : Nat) :
    (m.add under n).parent h = if h = m.size then under else m.parent h := by
  cases under with
  | none =>
    refine (parent_addRoot n h).trans ?_
    by_cases hh : h = m.size
    · rw [if_pos hh, parent_of_size_le (Nat.le_of_eq hh.symm)]
    · rw [if_neg hh]
  | some p => exact parent_addChild (hu p rfl) n h

theorem below_add (hu : ∀ p, under = some p → p < m.size) (n : Node) (u : Option Nat) :
    (m.add under n).below u = if u = under then m.below u ++ [m.size] else m.below u := by
  cases under with
  | none =>
    cases u with
    | none => exact roots_addRoot n
    | some h => exact children_addRoot n h
  | some p =>
    have hp : p < m.size := hu p rfl
    cases u with
    | none => exact congrArg Array.toList (roots_addChild n)
    | some h =>
      simp only [Option.some.injEq]
      exact children_addChild hp n h

theorem labels_add (m : Model) (under : Option Nat) (n : Node) :
    (m.add under n).labels = m.labels := by
  cases under with
  | none => rfl
  | some p =>
    show (m.addChild p n).labels = m.labels
    unfold addChild
    split <;> rfl

theorem Built.add (hm : Built m) (n : Node) (hu : ∀ p, under = some p → p < m.size) :
    Built (m.add under n) := by
  cases under with
  | none => exact .addRoot n hm
  | some p => exact .addChild n hm (hu p rfl)

end Add

/-- The second model is the first with one more node, which has nothing below it. -/
structure OneMore (m : Model) (under : Option Nat) (n : Node) (m' : Model) : Prop where
  size_eq : m'.size = m.size + 1
  new_node : m'.node m.size = n
  new_parent : m'.parent m.size = under
  new_children : m'.children m.size = []
  node_eq : ∀ h < m.size, m'.node h = m.node h
  parent_eq : ∀ h < m.size, m'.parent h = m.parent h
  children_eq : ∀ h < m.size,
    m'.children h = if some h = under then m.children h ++ [m.size] else m.children h
  roots_eq : m'.roots.toList = if none = under then m.roots.toList ++ [m.size] else m.roots.toList
  labels_eq : m'.labels = m.labels

/-- **Adding leaves alone everything that is there**, but for the list that the new handle goes
to. -/
theorem oneMore_add {under : Option Nat} (hu : ∀ p, under = some p → p < m.size) (n : Node) :
    OneMore m under n (m.add under n) where
  size_eq := size_add n hu
  new_node := by rw [node_add hu, if_pos rfl]
  new_parent := by rw [parent_add hu, if_pos rfl]
  new_children := by
    have hne : some m.size ≠ under := fun heq => Nat.lt_irrefl _ (hu m.size heq.symm)
    refine (below_add hu n (some m.size)).trans ?_
    rw [if_neg hne]
    exact children_of_size_le (Nat.le_refl _)
  node_eq h hh := by rw [node_add hu, if_neg (Nat.ne_of_lt hh)]
  parent_eq h hh := by rw [parent_add hu, if_neg (Nat.ne_of_lt hh)]
  children_eq h _ := below_add hu n (some h)
  roots_eq := below_add hu n none
  labels_eq := labels_add m under n

/-! ## The links agree -/

/-- Of the top-level nodes and of the children of a node the same is asked: that they are the nodes
that stand there, in the order in which they were added. -/
theorem forest_iff :
    Forest m ↔ (∀ u c, c ∈ m.below u ↔ c < m.size ∧ m.parent c = u) ∧
      ∀ u, (m.below u).Pairwise (· < ·) := by
  constructor
  · intro hf
    constructor
    · intro u c
      cases u with
      | none => exact hf.mem_roots c
      | some p =>
        refine (hf.mem_children p c).trans ?_
        exact ⟨fun hc => ⟨lt_size_of_parent hc, hc⟩, And.right⟩
    · intro u
      cases u with
      | none => exact hf.roots_sorted
      | some p => exact hf.children_sorted p
  · rintro ⟨hmem, hsorted⟩
    refine ⟨fun p c => (hmem (some p) c).trans ?_, fun p => hsorted (some p), hmem none,
      hsorted none⟩
    exact ⟨And.right, fun hc => ⟨lt_size_of_parent hc, hc⟩⟩

theorem forest_empty : Forest empty := by
  have hnone : ∀ u, empty.below u = [] := by
    intro u
    cases u with
    | none => rfl
    | some p => exact children_of_size_le (Nat.zero_le p)
  refine forest_iff.2 ⟨fun u c => ?_, fun u => ?_⟩
  · rw [hnone, size_empty]
    exact iff_of_false List.not_mem_nil fun hc => Nat.not_lt_zero c hc.1
  · rw [hnone]
    exact .nil

theorem sorted_concat {l : List Nat} {s : Nat} (hl : l.Pairwise (· < ·)) (hs : ∀ c ∈ l, c < s) :
    (l ++ [s]).Pairwise (· < ·) := by
  refine List.pairwise_append.2 ⟨hl, List.pairwise_singleton _ _, ?_⟩
  intro a ha b hb
  obtain rfl := List.mem_singleton.1 hb
  exact hs a ha

/-- One more node leaves the links in agreement, wherever it is added. -/
theorem Forest.add {under : Option Nat} (hf : Forest m)
    (hu : ∀ p, under = some p → p < m.size) (n : Node) : Forest (m.add under n) := by
  obtain ⟨hmem, hsorted⟩ := forest_iff.1 hf
  have hlt : ∀ u, ∀ c ∈ m.below u, c < m.size := fun u c hc => ((hmem u c).1 hc).1
  refine forest_iff.2 ⟨fun u c => ?_, fun u => ?_⟩
  · rw [below_add hu, parent_add hu, size_add n hu]
    by_cases hc : c = m.size
    · -- The new handle is in no list but the one that it was appended to.
      have hold : c ∉ m.below u := fun hold => Nat.ne_of_lt (hlt u c hold) hc
      rw [if_pos hc]
      by_cases hunder : u = under
      · rw [if_pos hunder]
        exact iff_of_true (List.mem_append_right _ (List.mem_singleton.2 hc))
          ⟨by omega, hunder.symm⟩
      · rw [if_neg hunder]
        exact iff_of_false hold fun h => hunder h.2.symm
    · have hsame : (c ∈ if u = under then m.below u ++ [m.size] else m.below u) ↔
          c ∈ m.below u := by
        split
        · rw [List.mem_append, List.mem_singleton, or_iff_left hc]
        · exact Iff.rfl
      rw [hsame, if_neg hc, hmem]
      exact and_congr_left fun _ => by omega
  · rw [below_add hu]
    split
    · exact sorted_concat (hsorted u) (hlt u)
    · exact hsorted u

/-- **The links of a built model agree**: whatever was added, and in whatever order. -/
theorem Built.forest (hm : Built m) : Forest m := by
  induction hm with
  | empty => exact forest_empty
  | declare label _ ih => exact ⟨ih.mem_children, ih.children_sorted, ih.mem_roots, ih.roots_sorted⟩
  | @addRoot m n _ ih =>
    show Forest (m.add none n)
    exact ih.add (by simp) n
  | @addChild m p n _ hp ih =>
    show Forest (m.add (some p) n)
    exact ih.add (fun q hq => Option.some.inj hq ▸ hp) n

theorem Forest.nodup_children (hf : Forest m) (p : Nat) : (m.children p).Nodup :=
  (hf.children_sorted p).imp Nat.ne_of_lt

theorem Forest.nodup_roots (hf : Forest m) : m.roots.toList.Nodup :=
  hf.roots_sorted.imp Nat.ne_of_lt

/-! ## Models from trees -/

mutual

theorem Built.graft {m : Model} {under : Option Nat} :
    ∀ t : Tree Node, Built m → (∀ p, under = some p → p < m.size) →
      Built (m.graft under t) ∧ m.size ≤ (m.graft under t).size
  | .node n ts, hm, hu => by
    have hsize := size_add n hu
    have hbelow : ∀ p, some m.size = some p → p < (m.add under n).size := by
      intro p hp
      obtain rfl := Option.some.inj hp
      omega
    have hall := Built.graftAll ts (hm.add n hu) hbelow
    exact ⟨hall.1, by have := hall.2; rw [Model.graft]; omega⟩

theorem Built.graftAll {m : Model} {under : Option Nat} :
    ∀ ts : List (Tree Node), Built m → (∀ p, under = some p → p < m.size) →
      Built (m.graftAll under ts) ∧ m.size ≤ (m.graftAll under ts).size
  | [], hm, _ => ⟨hm, Nat.le_refl _⟩
  | t :: ts, hm, hu => by
    have hfirst := Built.graft t hm hu
    have hafter : ∀ p, under = some p → p < (m.graft under t).size :=
      fun p hp => Nat.lt_of_lt_of_le (hu p hp) hfirst.2
    have hrest := Built.graftAll ts hfirst.1 hafter
    exact ⟨hrest.1, Nat.le_trans hfirst.2 hrest.2⟩

end

theorem Built.declareAll {m : Model} (labels : List String) (hm : Built m) :
    Built { m with labels := m.labels ++ labels } := by
  induction labels generalizing m with
  | nil => simpa using hm
  | cons label labels ih => simpa [Model.declare] using ih (.declare label hm)

/-- **A description's model is built step by step.** -/
theorem built_ofForest (d : Declarations) (forest : List (Tree Node)) :
    Built (ofForest d forest) := by
  have hstart : Built { empty with labels := d.labels } := by
    simpa [empty] using Built.empty.declareAll d.labels.toList
  exact (Built.graftAll forest hstart (by simp)).1

end RegLayer.Model
