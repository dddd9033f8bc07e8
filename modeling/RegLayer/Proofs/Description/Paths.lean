/-
# `RegLayer.Proofs.Description.Paths` — whether paths tell nodes apart

A path is the names from the top down to a node, joined by dots, and bus widths are looked up
under it.  In a forest whose siblings have different names the list of names tells the node
(`eq_of_map_name_lineage`), and joining it loses nothing if no name holds a dot; conversely
siblings of one name have one path (`pathsApart_iff`).

Reading a document does not compare names.  So for what was read both are a matter of the
document: siblings are apart exactly where the elements inside each element have different names,
and without dots the same goes for paths (`paths_tell_nodes_apart`).  Two register files of one
name are read (`siblings_can_share_name`); a dot in a name can join two paths although siblings
are apart (`dots_can_join_paths`).

Taken as given: the element was read as a design.
-/
import RegLayer.Proofs.Classes.Members
import RegLayer.Proofs.Model.Position

namespace RegLayer

open Xml

/-! ## Paths in a forest -/

namespace Model

variable {m : Model} {a b : Nat}

theorem path_eq_join_lineage (h : Nat) :
    m.path h = Text.join "." ((m.lineage h).map m.name).reverse :=
  relPath_none h "."

theorem path_eq_of_name_eq (hparent : m.parent a = m.parent b) (hname : m.name a = m.name b) :
    m.path a = m.path b := by
  have hlines : (m.lineage a).map m.name = (m.lineage b).map m.name := by
    unfold lineage
    rw [List.map_cons, List.map_cons, hname, ancestors_eq, ancestors_eq, hparent]
  rw [path_eq_join_lineage, path_eq_join_lineage, hlines]

/-- Different paths have different nodes at their ends. -/
def PathsApart (m : Model) : Prop :=
  ∀ a, a < m.size → ∀ b, b < m.size → m.path a = m.path b → a = b

theorem distinctSiblings_of_pathsApart (hf : Forest m) (hm : m.PathsApart) :
    m.DistinctSiblings where
  roots := by
    refine hf.nodup_roots.map_on fun a ha b hb hname => ?_
    obtain ⟨ha, hpa⟩ := (hf.mem_roots a).1 ha
    obtain ⟨hb, hpb⟩ := (hf.mem_roots b).1 hb
    exact hm a ha b hb (path_eq_of_name_eq (hpa.trans hpb.symm) hname)
  children := by
    intro p _
    refine (hf.nodup_children p).map_on fun a ha b hb hname => ?_
    have hpa := (hf.mem_children p a).1 ha
    have hpb := (hf.mem_children p b).1 hb
    exact hm a (lt_size_of_parent hpa) b (lt_size_of_parent hpb)
      (path_eq_of_name_eq (hpa.trans hpb.symm) hname)

theorem plain_of_no_dot {name : String} (h : '.' ∉ name.toList) : Text.Plain "." name := by
  refine Text.plain_iff.2 fun hinfix => h ?_
  have hdot : '.' ∈ name.toList ++ [] := hinfix.subset List.mem_cons_self
  rwa [List.append_nil] at hdot

/-- **Paths tell nodes apart exactly where siblings have different names**, if no name holds a
dot. -/
theorem pathsApart_iff (hf : Forest m) (hdots : ∀ h, h < m.size → '.' ∉ (m.name h).toList) :
    m.PathsApart ↔ m.DistinctSiblings := by
  refine ⟨distinctSiblings_of_pathsApart hf, fun hm a ha b hb hpath => ?_⟩
  have hplain : ∀ h, h < m.size → ∀ c ∈ m.lineage h, Text.Plain "." (m.name c) :=
    fun h hh c hc => plain_of_no_dot (hdots c (Nat.lt_of_le_of_lt (le_of_mem_lineage hc) hh))
  rw [path_eq_join_lineage, path_eq_join_lineage] at hpath
  exact eq_of_map_name_lineage hf hm ha hb (map_name_eq_of_join_eq (List.cons_ne_nil _ _)
    (List.cons_ne_nil _ _) (hplain a ha) (hplain b hb) hpath)

end Model

/-! ## Names in a document -/

namespace Description

/-- Inside each element, the elements have different names. -/
def NamesApart (root : Element) : Prop :=
  ∀ e : Element, e.Subtree root → (e.children.map fun c => c.label.attribute? "name").Nodup

instance (root : Element) : Decidable (NamesApart root) :=
  decidable_of_iff (root.everywhere fun e =>
      decide (e.children.map fun c => c.label.attribute? "name").Nodup) (by
    simp only [Tree.everywhere_iff, decide_eq_true_eq]
    exact Iff.rfl)

/-- No name that an element gives holds a dot. -/
def NoDots (root : Element) : Prop :=
  ∀ tag ∈ Tree.preorderAll root.children, ∀ name ∈ tag.attribute? "name", '.' ∉ name.toList

instance (root : Element) : Decidable (NoDots root) :=
  inferInstanceAs (Decidable (∀ tag ∈ Tree.preorderAll root.children,
    ∀ name ∈ tag.attribute? "name", '.' ∉ name.toList))

variable {root : Element} {m : Model}

theorem map_name_eq {elements : List Element} {ts : List (Tree Node)}
    (h : List.Forall₂ (Tree.Agree Decoded) elements ts) :
    (elements.map fun e => e.label.attribute? "name") = ts.map fun t => some t.label.name := by
  induction h with
  | nil => rfl
  | @cons e t es ts het _ ih =>
    cases het with
    | node hdecoded _ => rw [List.map_cons, List.map_cons, ih, Tree.label_node, Tree.label_node,
        hdecoded.name]

theorem agree_children {e : Element} {p : Nat} (h : e.Agree Decoded (m.unfold p)) :
    List.Forall₂ (Tree.Agree Decoded) e.children ((m.children p).map m.unfold) := by
  rw [Model.unfold_eq] at h
  cases h with
  | node _ hinside => exact hinside

theorem nodup_iff_of_agree {elements : List Element} {hs : List Nat}
    (h : List.Forall₂ (Tree.Agree Decoded) elements (hs.map m.unfold)) :
    (elements.map fun e => e.label.attribute? "name").Nodup ↔ (hs.map m.name).Nodup := by
  have hnames : (elements.map fun e => e.label.attribute? "name") =
      (hs.map m.name).map some := by
    rw [map_name_eq h, List.map_map, List.map_map]
    refine List.map_congr_left fun g _ => ?_
    show some (m.unfold g).label.name = _
    rw [Model.label_unfold]
    rfl
  rw [hnames]
  exact List.nodup_map_iff fun _ _ => Option.some.inj

theorem agree_roots (hread : ofElement root = .ok m) :
    List.Forall₂ (Tree.Agree Decoded) root.children (m.roots.toList.map m.unfold) := by
  obtain ⟨_, d, ts, hloads, _, rfl⟩ := exists_forest_of_ofElement hread
  rw [Model.map_unfold_roots_ofForest]
  exact (read_components none root.children hloads).1

/-- **Siblings have different names exactly where the elements have.** -/
theorem distinctSiblings_iff (hread : ofElement root = .ok m) :
    m.DistinctSiblings ↔ NamesApart root := by
  have hroots := agree_roots hread
  constructor
  · intro hm e he
    cases root with
    | node tag inside =>
      rcases Tree.subtree_node_iff.1 he with rfl | ⟨c, hc, hec⟩
      · exact (nodup_iff_of_agree hroots).2 hm.roots
      · obtain ⟨t, ht, hct⟩ := forall₂_exists_left hroots.flip hc
        obtain ⟨r, _, rfl⟩ := List.mem_map.1 ht
        obtain ⟨s, hs, hagree⟩ := Tree.Agree.exists_of_subtree_left hct hec
        obtain ⟨p, rfl⟩ := Model.exists_of_subtree_unfold hs
        exact (nodup_iff_of_agree (agree_children hagree)).2 (hm.nodup_children p)
  · intro hnames
    refine ⟨(nodup_iff_of_agree hroots).1 (hnames root .self), fun p hp => ?_⟩
    obtain ⟨e, he, hagree⟩ := exists_element hread hp
    exact (nodup_iff_of_agree (agree_children hagree)).1 (hnames e he)

theorem no_dot_of_noDots (hread : ofElement root = .ok m) (hdots : NoDots root) {h : Nat}
    (hh : h < m.size) : '.' ∉ (m.name h).toList := by
  obtain ⟨hmirrors, _, _⟩ := mirrors_of_ofElement hread
  obtain ⟨tag, htag, hdecoded⟩ := forall₂_exists_left hmirrors.nodes
    (List.mem_map_of_mem (f := m.node) (List.mem_range.2 hh))
  exact hdots tag htag (m.name h) hdecoded.name

/-- **What makes paths tell nodes apart.**  In a design that was read, no two siblings and no two
top-level maps share a name exactly where the elements inside each element of the document have
different names.  If no name holds a dot, this is also exactly when no two nodes share a path. -/
theorem paths_tell_nodes_apart (hread : ofElement root = .ok m) :
    (m.DistinctSiblings ↔ NamesApart root) ∧
      (NoDots root → (m.PathsApart ↔ NamesApart root)) := by
  refine ⟨distinctSiblings_iff hread, fun hdots => ?_⟩
  have hf : m.Forest := (built_of_ofElement hread).forest
  exact (Model.pathsApart_iff hf fun h hh => no_dot_of_noDots hread hdots hh).trans
    (distinctSiblings_iff hread)

/-! ### Register files that are named apart, and ones that are not -/

/-- Two register files in a map, each with a register `ctrl`, of 8 and of 64 bits. -/
def registerFiles (first second : String) : String :=
  "<model><addrmap name=\"soc\"><regfile name=\"" ++ first ++
    "\"><reg name=\"ctrl\" regwidth=\"8\"/></regfile><regfile name=\"" ++ second ++
    "\"><reg name=\"ctrl\" regwidth=\"64\"/></regfile></addrmap></model>"

theorem namesApart_registerFiles :
    (fun root => (decide (NamesApart root), decide (NoDots root))) <$>
      Element.ofText? (registerFiles "tx" "rx") = some (true, true) ∧
    (read (registerFiles "tx" "rx")).isOk = true := by
  decide +kernel

theorem paths_tell_nodes_apart_registerFiles :
    ∃ root m, Element.ofText? (registerFiles "tx" "rx") = some root ∧
      read (registerFiles "tx" "rx") = .ok m ∧ NamesApart root ∧ m.DistinctSiblings ∧
      m.PathsApart := by
  obtain ⟨hroot, hok⟩ := namesApart_registerFiles
  obtain ⟨root, htext, hfacts⟩ := Option.map_eq_some_iff.1 hroot
  obtain ⟨hnames, hdots⟩ := by simpa only [Prod.mk.injEq, decide_eq_true_eq] using hfacts
  obtain ⟨m, hread⟩ := isOk_iff.1 hok
  obtain ⟨root', htext', hroot'⟩ := read_eq_ok_iff.1 hread
  obtain rfl : root = root' := Option.some.inj (htext.symm.trans htext')
  obtain ⟨hsiblings, hpaths⟩ := paths_tell_nodes_apart hroot'
  exact ⟨root, m, htext, hread, hnames, hsiblings.2 hnames, (hpaths hdots).2 hnames⟩

theorem namesakes_registerFiles :
    (fun m => decide m.DistinctSiblings) <$> read (registerFiles "blk" "blk") = .ok false := by
  decide +kernel

/-- **Siblings of one name are read**: it is not so that names of siblings, and paths, are different
in every design that was read. -/
theorem siblings_can_share_name :
    ¬∀ (text : String) (m : Model), read text = .ok m → m.DistinctSiblings ∧ m.PathsApart := by
  intro hall
  obtain ⟨m, hread, hno⟩ := map_eq_ok.1 namesakes_registerFiles
  exact of_decide_eq_false hno (hall _ m hread).1

/-- A map with a register of a dotted name, and a register at the end of the same path. -/
def dottedName : String :=
  "<model><addrmap name=\"soc\"><reg name=\"a.b\"/><regfile name=\"a\"><reg name=\"b\"/>" ++
    "</regfile></addrmap></model>"

theorem paths_dottedName :
    (fun m => (decide m.DistinctSiblings, m.size, m.path 1 == m.path 3)) <$> read dottedName =
      .ok (true, 4, true) := by
  decide +kernel

/-- Names with dots in them can give two nodes one path where all siblings have different names. -/
theorem dots_can_join_paths :
    ∃ m, read dottedName = .ok m ∧ m.DistinctSiblings ∧ ¬m.PathsApart := by
  obtain ⟨m, hread, hfacts⟩ := map_eq_ok.1 paths_dottedName
  simp only [Prod.mk.injEq, decide_eq_true_eq, beq_iff_eq] at hfacts
  obtain ⟨hsiblings, hsize, hpath⟩ := hfacts
  refine ⟨m, hread, hsiblings, fun hapart => ?_⟩
  have hsame := hapart 1 (by omega) 3 (by omega) hpath
  cases hsame

end Description

end RegLayer
