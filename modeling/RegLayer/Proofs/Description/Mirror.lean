/-
# `RegLayer.Proofs.Description.Mirror` — a model is its document once more

Reading goes down the elements once, and looks at one element and the one around it at a time.
What it makes is a tree of components that agrees with the tree of elements at every place, and in
which every component may stand where it does (`read_component`, by induction on the element).

Planting the trees gives each component the next handle; so the model has the elements of the
document as its nodes, in the order of the document, and what was checked at each edge holds of
the model as a whole (`mirrors_document`): fields stand in registers and nothing else does, the
roots are address maps, widths are positive, and every node has an address map around it.

Taken as given: the element was read as a design.
-/
import RegLayer.Proofs.Description.Decoded
import RegLayer.Proofs.Model.Agree
import RegLayer.Proofs.Model.Numbered

namespace RegLayer

/-! ## Checks at every edge -/

/-- A component may stand at the top if it is an address map, and inside another one if it is a
field exactly where that one is a register. -/
def Kind.MayStand (kind : Kind) : Option Kind → Prop
  | none => kind.isAddrmap = true
  | some around => kind.field?.isSome = around.isReg

theorem Kind.MayStand.field_iff {kind : Kind} {around : Option Kind} (h : kind.MayStand around) :
    kind.field?.isSome = true ↔ ∃ k, around = some k ∧ k.isReg = true := by
  cases around with
  | none =>
    constructor
    · intro hfield
      cases kind with
      | addrmap endianness bridge => cases hfield
      | regfile | reg _ _ | mem _ _ _ | field _ | signal => cases h
    · intro ⟨k, hk, _⟩
      cases hk
  | some around =>
    rw [h]
    constructor
    · intro hreg
      exact ⟨around, rfl, hreg⟩
    · intro ⟨k, hk, hreg⟩
      obtain rfl := Option.some.inj hk
      exact hreg

theorem Kind.MayStand.isReg_eq_false {kind around : Kind} (h : kind.MayStand (some around))
    (hfield : kind.field?.isSome = false) : around.isReg = false :=
  h.symm.trans hfield

/-- Everywhere in the tree components stand where they may. -/
def Tree.WellPlaced (t : Tree Node) : Prop :=
  ∀ s : Tree Node, s.Subtree t → ∀ u ∈ s.children, u.label.kind.MayStand (some s.label.kind)

theorem Tree.wellPlaced_node {n : Node} {ts : List (Tree Node)}
    (hchildren : ∀ t ∈ ts, t.label.kind.MayStand (some n.kind))
    (hinside : ∀ t ∈ ts, t.WellPlaced) : (Tree.node n ts).WellPlaced := by
  intro s hs
  rcases subtree_node_iff.1 hs with rfl | ⟨t, ht, hs⟩
  · exact hchildren
  · exact hinside t ht s hs

namespace Description

open Xml

/-! ## Reading trees -/

theorem mayStand_of_checkPlace {place : Option Place} {element name : String} {kind : Kind}
    (h : checkPlace place element name kind = .ok ()) : kind.MayStand (place.map (·.kind)) := by
  simp only [checkPlace] at h
  split at h
  · split at h
    · next hmap => exact hmap
    · cases h
  · split at h
    · next heq => exact (beq_iff_eq.1 heq).symm
    · cases h

mutual

/-- **An element becomes the component that it describes**, with those inside it. -/
theorem read_component (place : Option Place) :
    ∀ (e : Element) {known later : Declarations} {t : Tree Node},
      Loads (component place e) known t later →
        e.Agree Decoded t ∧ t.label.kind.MayStand (place.map (·.kind)) ∧ t.WellPlaced
  | .node tag inside, known, later, t, h => by
    simp only [component, loads_bind, loads_pure] at h
    obtain ⟨n, mid, hn, ts, _, hts, rfl, rfl⟩ := h
    obtain ⟨hdecoded, hplace⟩ := decoded_of_node hn
    obtain ⟨hagree, hinside⟩ := read_components (some (placeInside place n)) inside hts
    have hwell : (Tree.node n ts).WellPlaced := by
      refine Tree.wellPlaced_node ?_ ?_
      · intro t ht
        exact (hinside t ht).1
      · intro t ht
        exact (hinside t ht).2
    exact ⟨.node hdecoded hagree, mayStand_of_checkPlace hplace, hwell⟩

theorem read_components (place : Option Place) :
    ∀ (es : List Element) {known later : Declarations} {ts : List (Tree Node)},
      Loads (components place es) known ts later → List.Forall₂ (Tree.Agree Decoded) es ts ∧
        ∀ t ∈ ts, t.label.kind.MayStand (place.map (·.kind)) ∧ t.WellPlaced
  | [], known, later, ts, h => by
    simp only [components, loads_pure] at h
    obtain ⟨rfl, rfl⟩ := h
    exact ⟨.nil, fun t ht => absurd ht List.not_mem_nil⟩
  | e :: es, known, later, ts, h => by
    simp only [components, loads_bind, loads_pure] at h
    obtain ⟨t, mid, ht, us, _, hus, rfl, rfl⟩ := h
    obtain ⟨hagree, hplaced⟩ := read_component place e ht
    obtain ⟨hagrees, hrest⟩ := read_components place es hus
    exact ⟨.cons hagree hagrees, List.forall_mem_cons.2 ⟨hplaced, hrest⟩⟩

end

theorem exists_forest_of_ofElement {root : Element} {m : Model} (h : ofElement root = .ok m) :
    root.label.name = "model" ∧ ∃ declarations forest,
      Loads (components none root.children) .empty forest declarations ∧ forest ≠ [] ∧
        Model.ofForest declarations forest = m := by
  simp only [ofElement] at h
  split at h
  · cases h
  · next hname =>
    obtain ⟨⟨forest, declarations⟩, hforest, h⟩ := bind_eq_ok.1 h
    dsimp only at h
    split at h
    · cases h
    · next hne =>
      refine ⟨by simpa using hname, declarations, forest, hforest, ?_, pure_eq_ok.1 h⟩
      intro hnil
      exact hne (hnil ▸ rfl)

end Description

/-! ## From trees to the model -/

namespace Model

variable {d : Declarations} {ts : List (Tree Node)}

theorem unfold_mem_of_mem_roots {h : Nat} (hh : h ∈ (ofForest d ts).roots.toList) :
    (ofForest d ts).unfold h ∈ ts := by
  have hmem := List.mem_map_of_mem (f := (ofForest d ts).unfold) hh
  rw [map_unfold_roots_ofForest] at hmem
  exact hmem

section Agree

variable {α : Type} {R : α → Node → Prop} {us : List (Tree α)}

theorem agree_subtree_ofForest (hagree : List.Forall₂ (Tree.Agree R) us ts) :
    List.Forall₂ (Tree.Agree fun a h => R a ((ofForest d ts).node h)) us
      ((ofForest d ts).roots.toList.map (ofForest d ts).subtree) := by
  refine agree_subtree_all ?_
  rw [map_unfold_roots_ofForest]
  exact hagree

theorem forall₂_nodes_ofForest (hagree : List.Forall₂ (Tree.Agree R) us ts) :
    List.Forall₂ R (Tree.preorderAll us)
      ((List.range (ofForest d ts).size).map (ofForest d ts).node) := by
  have hnodes := Tree.Agree.forall₂_preorderAll (agree_subtree_ofForest (d := d) hagree)
  rw [preorderAll_subtree, flatMap_preorder_roots] at hnodes
  rw [List.forall₂_map_right_iff]
  exact hnodes

end Agree

theorem mayStand_parent (hplaced : ∀ t ∈ ts, t.label.kind.MayStand none ∧ t.WellPlaced) {h : Nat}
    (hh : h < (ofForest d ts).size) :
    ((ofForest d ts).kind h).MayStand (((ofForest d ts).parent h).map (ofForest d ts).kind) := by
  have hf : (ofForest d ts).Forest := (built_ofForest d ts).forest
  cases hparent : (ofForest d ts).parent h with
  | none =>
    have hroot := (hf.mem_roots h).2 ⟨hh, hparent⟩
    have hstand := (hplaced _ (unfold_mem_of_mem_roots hroot)).1
    rw [label_unfold] at hstand
    exact hstand
  | some p =>
    obtain ⟨t, ht, hsub⟩ := exists_unfold_ofForest (Nat.lt_trans (parent_lt hparent) hh)
    have hchild : (ofForest d ts).unfold h ∈ ((ofForest d ts).unfold p).children := by
      rw [unfold_eq, Tree.children_node]
      exact List.mem_map_of_mem ((hf.mem_children p h).2 hparent)
    have hstand := (hplaced t ht).2 _ hsub _ hchild
    rw [label_unfold, label_unfold] at hstand
    exact hstand

variable {m : Model}

theorem owner_isSome (hf : m.Forest) (hroots : ∀ h ∈ m.roots.toList, (m.kind h).isAddrmap = true)
    {h : Nat} (hh : h < m.size) : (m.owner h).isSome = true := by
  have hmap : ∃ a ∈ m.lineage h, (m.kind a).isAddrmap = true := by
    induction h using m.induct_parent with
    | root h hparent =>
      exact ⟨h, mem_lineage_self h, hroots h ((hf.mem_roots h).2 ⟨hh, hparent⟩)⟩
    | child h p hparent ih =>
      obtain ⟨a, ha, hmap⟩ := ih (Nat.lt_trans (parent_lt hparent) hh)
      exact ⟨a, (mem_lineage_of_parent hparent).2 (Or.inr ha), hmap⟩
  exact List.find?_isSome.2 hmap

end Model

/-! ## The model as a whole -/

namespace Description

open Xml

/-- The model holds what the elements describe, once and in order. -/
structure Mirrors (m : Model) (elements : List Element) : Prop where
  /-- The handles are the places of the elements in the document, and the node at each of them is
  the one that the element describes. -/
  nodes : List.Forall₂ Decoded (Tree.preorderAll elements) ((List.range m.size).map m.node)
  /-- The trees below the roots are the trees of the elements. -/
  trees : List.Forall₂ (Tree.Agree fun tag h => Decoded tag (m.node h)) elements
    (m.roots.toList.map m.subtree)
  /-- In the order of the document, the nodes of these trees are all nodes in the order of their
  handles. -/
  order : m.roots.toList.flatMap m.preorder = List.range m.size
  /-- Parents, children and roots agree. -/
  links : m.Forest

theorem mirrors_ofForest {d : Declarations} {elements : List Element} {ts : List (Tree Node)}
    (hagree : List.Forall₂ (Tree.Agree Decoded) elements ts) :
    Mirrors (Model.ofForest d ts) elements :=
  ⟨Model.forall₂_nodes_ofForest hagree, Model.agree_subtree_ofForest hagree,
    Model.flatMap_preorder_roots d ts, (Model.built_ofForest d ts).forest⟩

section Read

variable {root : Element} {m : Model}

theorem mirrors_of_ofElement (hread : ofElement root = .ok m) :
    Mirrors m root.children ∧ m.roots.toList ≠ [] ∧
      ∀ h, h < m.size → (m.kind h).MayStand ((m.parent h).map m.kind) := by
  obtain ⟨_, d, ts, hloads, hne, rfl⟩ := exists_forest_of_ofElement hread
  obtain ⟨hagree, hplaced⟩ := read_components none root.children hloads
  refine ⟨mirrors_ofForest hagree, ?_, ?_⟩
  · intro hnil
    have hall := Model.map_unfold_roots_ofForest d ts
    rw [hnil] at hall
    exact hne hall.symm
  · intro h hh
    exact Model.mayStand_parent hplaced hh

theorem exists_element (hread : ofElement root = .ok m) {h : Nat} (hh : h < m.size) :
    ∃ e : Element, e.Subtree root ∧ e.Agree Decoded (m.unfold h) := by
  obtain ⟨_, d, ts, hloads, _, rfl⟩ := exists_forest_of_ofElement hread
  obtain ⟨hagree, _⟩ := read_components none root.children hloads
  obtain ⟨t, ht, hsub⟩ := Model.exists_unfold_ofForest hh
  obtain ⟨e, he, het⟩ := forall₂_exists_left hagree ht
  obtain ⟨r, hr, hragree⟩ := het.exists_of_subtree hsub
  cases root with
  | node tag inside => exact ⟨r, .child he hr, hragree⟩

/-- **A model mirrors its document**: it has one node for each element below the root, numbered in
the order of the document, linked as the elements are and decoded from their tags.  There are
top-level nodes, and they are address maps; the fields are exactly the nodes in registers; all
widths are positive; and every node belongs to an address map. -/
theorem mirrors_document (hread : ofElement root = .ok m) :
    root.label.name = "model" ∧
      m.size = (Tree.preorderAll root.children).length ∧
      Mirrors m root.children ∧
      m.roots.toList ≠ [] ∧
      (∀ h ∈ m.roots.toList, (m.kind h).isAddrmap = true) ∧
      (∀ h, h < m.size → ((m.kind h).field?.isSome = true ↔
        ∃ p, m.parent h = some p ∧ (m.kind p).isReg = true)) ∧
      (∀ h, h < m.size → (m.kind h).WidthsPositive) ∧
      ∀ h, h < m.size → (m.owner h).isSome = true := by
  obtain ⟨hmirrors, hne, hstand⟩ := mirrors_of_ofElement hread
  have hroots : ∀ h ∈ m.roots.toList, (m.kind h).isAddrmap = true := by
    intro h hh
    obtain ⟨hlt, hparent⟩ := (hmirrors.links.mem_roots h).1 hh
    have hmap := hstand h hlt
    rw [hparent] at hmap
    exact hmap
  refine ⟨(exists_forest_of_ofElement hread).1, ?_, hmirrors, hne, hroots, ?_, ?_, ?_⟩
  · simpa using hmirrors.nodes.length_eq.symm
  · intro h hh
    rw [(hstand h hh).field_iff]
    simp [Option.map_eq_some_iff]
  · intro h hh
    obtain ⟨tag, _, hdecoded⟩ := forall₂_exists_left hmirrors.nodes
      (List.mem_map_of_mem (f := m.node) (List.mem_range.2 hh))
    exact hdecoded.kind.widthsPositive
  · intro h hh
    exact Model.owner_isSome hmirrors.links hroots hh

end Read

/-! ### A map with a register and an array of memories -/

/-- A map with a register, which has a field, and with two memories. -/
def mixerDesign : Element :=
  .node ⟨"model", [], none⟩ [
    .node ⟨"addrmap", [("name", "mixer"), ("bigendian", "1")], none⟩ [
      .node ⟨"reg", [("name", "ctrl"), ("offset", "0x4"), ("regwidth", "16")], none⟩ [
        .node ⟨"field", [("name", "mode"), ("lsb", "1"), ("msb", "3"), ("sw", "r")], none⟩ []],
      .node ⟨"mem", [("name", "ram"), ("mementries", "256"), ("memwidth", "32"), ("dims", "2"),
        ("stride", "0x400")], none⟩ []]]

/-- The document of four elements is accepted, and its model has four nodes. -/
theorem mirrors_document_mixer :
    ∃ m, ofElement mixerDesign = .ok m ∧ m.size = 4 ∧ Mirrors m mixerDesign.children ∧
      ∀ h, h < 4 → (m.owner h).isSome = true := by
  obtain ⟨m, hread⟩ := isOk_iff.1 (by decide +kernel : (ofElement mixerDesign).isOk = true)
  obtain ⟨_, hsize, hmirrors, _, _, _, _, howner⟩ := mirrors_document hread
  have hfour : m.size = 4 := hsize
  exact ⟨m, hread, hfour, hmirrors, fun h hh => howner h (hfour ▸ hh)⟩

end Description

end RegLayer
