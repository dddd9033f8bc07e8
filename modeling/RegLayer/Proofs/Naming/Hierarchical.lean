/-
# `RegLayer.Proofs.Naming.Hierarchical` — names after paths

In the hierarchical style a class is named after the way from the top of the export down to its
component (`trail`).  Where siblings have different names, the list of names on that way tells the
component (`eq_of_map_name_trail`).  The class name is the list joined, and joining can lose where
one name ends and the next begins; it does not for names in which no separator begins
(`Text.Plain`).

So a layer with hierarchical names shares no class, as long as the names are plain
(`Exporter.hierarchical_never_shares`), and two components of one declaration can come to share
one if they are not (`crossedWays`).

Taken as given: the design was read from an element, siblings have different names, and the layer
has been rendered.
-/
import RegLayer.Description
import RegLayer.Proofs.Classes.Collision
import RegLayer.Proofs.Naming.Lexical
import RegLayer.Proofs.Text.Join

namespace RegLayer

/-! ## The way up to the top -/

namespace Model

variable {m : Model} {top h p : Nat}

/-- The nodes on the way from a node up to the top of an export, both included. -/
def trail (m : Model) (top h : Nat) : List Nat :=
  h :: (m.ancestors h).takeWhile fun a => some a != m.parent top

theorem relPath_eq_join_trail (sep : String) :
    m.relPath h (m.parent top) sep = Text.join sep ((m.trail top h).map m.name).reverse :=
  rfl

theorem trail_eq_climb : m.trail top h = m.climb h (m.parent top) :=
  rfl

theorem lineage_eq_trail_append (htop : top ∈ m.lineage h) :
    m.lineage h = m.trail top h ++ m.ancestors top := by
  rw [trail_eq_climb]
  cases hp : m.parent top with
  | none =>
    rw [ancestors_of_root hp, List.append_nil, climb_none]
  | some p =>
    have habove : p ∈ m.ancestors h := ancestors_subset htop (mem_ancestors_of_parent hp)
    rw [ancestors_of_parent hp, lineage_eq_climb_append habove]

/-! ## Siblings with different names -/

/-- No two siblings have the same name, be they top-level trees or children of one node. -/
structure DistinctSiblings (m : Model) : Prop where
  roots : (m.roots.toList.map m.name).Nodup
  children : ∀ p, p < m.size → ((m.children p).map m.name).Nodup

instance (m : Model) : Decidable m.DistinctSiblings :=
  decidable_of_iff ((m.roots.toList.map m.name).Nodup ∧
      ∀ p, p < m.size → ((m.children p).map m.name).Nodup)
    ⟨fun ⟨h₁, h₂⟩ => ⟨h₁, h₂⟩, fun h => ⟨h.roots, h.children⟩⟩

theorem DistinctSiblings.nodup_children (hm : m.DistinctSiblings) (p : Nat) :
    ((m.children p).map m.name).Nodup := by
  by_cases hp : p < m.size
  · exact hm.children p hp
  · rw [children_of_size_le (Nat.le_of_not_lt hp)]
    exact List.nodup_nil

/-- **The names of a node and of all above it tell the node.** -/
theorem eq_of_map_name_lineage (hf : Forest m) (hm : m.DistinctSiblings) {a b : Nat}
    (ha : a < m.size) (hb : b < m.size)
    (hnames : (m.lineage a).map m.name = (m.lineage b).map m.name) : a = b := by
  induction a using m.induct_parent generalizing b with
  | root a hpa =>
    cases hpb : m.parent b with
    | none =>
      rw [lineage_of_root hpa, lineage_of_root hpb] at hnames
      exact List.inj_on_of_nodup_map hm.roots ((hf.mem_roots a).2 ⟨ha, hpa⟩)
        ((hf.mem_roots b).2 ⟨hb, hpb⟩) (List.cons.inj hnames).1
    | some q =>
      rw [lineage_of_root hpa, lineage_of_parent hpb] at hnames
      simp [lineage] at hnames
  | child a p hpa ih =>
    cases hpb : m.parent b with
    | none =>
      rw [lineage_of_parent hpa, lineage_of_root hpb] at hnames
      simp [lineage] at hnames
    | some q =>
      rw [lineage_of_parent hpa, lineage_of_parent hpb, List.map_cons, List.map_cons] at hnames
      obtain ⟨hname, habove⟩ := List.cons.inj hnames
      obtain rfl := ih (Nat.lt_trans (parent_lt hpa) ha) (Nat.lt_trans (parent_lt hpb) hb) habove
      exact List.inj_on_of_nodup_map (hm.nodup_children p) ((hf.mem_children p a).2 hpa)
        ((hf.mem_children p b).2 hpb) hname

/-- **The names on the way from the top tell a node.** -/
theorem eq_of_map_name_trail (hf : Forest m) (hm : m.DistinctSiblings) {a b : Nat}
    (ha : a ∈ m.region top) (hb : b ∈ m.region top)
    (hnames : (m.trail top a).map m.name = (m.trail top b).map m.name) : a = b := by
  obtain ⟨ha, hta⟩ := mem_region.1 ha
  obtain ⟨hb, htb⟩ := mem_region.1 hb
  refine eq_of_map_name_lineage hf hm ha hb ?_
  rw [lineage_eq_trail_append hta, lineage_eq_trail_append htb, List.map_append, List.map_append,
    hnames]

theorem map_name_eq_of_join_eq {sep : String} {as bs : List Nat} (has : as ≠ []) (hbs : bs ≠ [])
    (hpa : ∀ c ∈ as, Text.Plain sep (m.name c)) (hpb : ∀ c ∈ bs, Text.Plain sep (m.name c))
    (h : Text.join sep (as.map m.name).reverse = Text.join sep (bs.map m.name).reverse) :
    as.map m.name = bs.map m.name := by
  have hplain : ∀ {l : List Nat}, (∀ c ∈ l, Text.Plain sep (m.name c)) →
      ∀ name ∈ (l.map m.name).reverse, Text.Plain sep name := by
    intro l hl name hname
    obtain ⟨c, hc, rfl⟩ := List.mem_map.1 (List.mem_reverse.1 hname)
    exact hl c hc
  have hne : ∀ {l : List Nat}, l ≠ [] → (l.map m.name).reverse ≠ [] := by
    intro l hl
    simpa using hl
  exact List.reverse_injective
    (Text.join_inj (hplain hpa) (hplain hpb) (hne has) (hne hbs) h)

theorem eq_of_relPath_eq (hf : Forest m) (hm : m.DistinctSiblings) {sep : String} {a b : Nat}
    (ha : a ∈ m.region top) (hb : b ∈ m.region top)
    (hpa : ∀ c ∈ m.trail top a, Text.Plain sep (m.name c))
    (hpb : ∀ c ∈ m.trail top b, Text.Plain sep (m.name c))
    (hpath : m.relPath a (m.parent top) sep = m.relPath b (m.parent top) sep) : a = b := by
  rw [relPath_eq_join_trail, relPath_eq_join_trail] at hpath
  exact eq_of_map_name_trail hf hm ha hb
    (map_name_eq_of_join_eq (List.cons_ne_nil _ _) (List.cons_ne_nil _ _) hpa hpb hpath)

end Model

/-! ## Layers without sharing -/

namespace Exporter

variable {e : Exporter} {m : Model} {top : Nat} {output : String} {layer : Layer}

/-- **No class serves twice exactly where all components have class names of their own.** -/
theorem reused_eq_zero_iff (hm : m.Built) (hok : (e.render m top output).outcome = .ok layer) :
    layer.reused = 0 ↔ (e.classNames m top).Nodup := by
  obtain ⟨hmap, out, hrun, _, _, hreused⟩ := run_of_render hok
  have hf : m.Forest := hm.forest
  have htop : top < m.size := Model.lt_size_of_isAddrmap hmap
  have hbodies : out.bodies.length = (e.classNames m top).dedup.length :=
    hrun.length_bodies (mem_classed_iff hf htop)
  have hall : out.bodies.length + out.reused = (e.classNames m top).length := by
    rw [classNames, List.length_map, hrun.length_add_reused]
    exact (Model.perm_classed hf htop).length_eq
  rw [hreused]
  constructor
  · intro hzero
    have hlen : (e.classNames m top).dedup.length = (e.classNames m top).length := by omega
    exact List.dedup_eq_self.1 ((List.dedup_sublist _).eq_of_length hlen)
  · intro hnodup
    rw [List.dedup_eq_self.2 hnodup] at hbodies
    omega

theorem classes_add_reused (hm : m.Built) (hok : (e.render m top output).outcome = .ok layer) :
    layer.classes + layer.reused = (m.classed top).length := by
  obtain ⟨hmap, out, hrun, _, hclasses, hreused⟩ := run_of_render hok
  rw [hclasses, hreused, hrun.register_size, hrun.length_add_reused]
  exact (Model.perm_classed hm.forest (Model.lt_size_of_isAddrmap hmap)).length_eq

theorem className_of_hierarchical (hstyle : e.options.shareClasses = false) (h : Nat) :
    (e.context m top).names.className h = m.relPath h (m.parent top) Naming.separator := by
  have hs : (e.context m top).names.style = .hierarchical :=
    if_neg (by rw [hstyle]; exact Bool.false_ne_true)
  unfold Naming.className
  rw [hs]
  rfl

theorem nodup_classNames_of_plain (hf : m.Forest) (hm : m.DistinctSiblings)
    (hstyle : e.options.shareClasses = false)
    (hplain : ∀ h ∈ m.classed top, ∀ a ∈ m.trail top h,
      Text.Plain Naming.separator (m.name a)) :
    (e.classNames m top).Nodup := by
  refine (Model.nodup_classed m top).map_on fun a ha b hb hname => ?_
  rw [className_of_hierarchical hstyle, className_of_hierarchical hstyle] at hname
  exact Model.eq_of_relPath_eq hf hm (Model.mem_classed.1 ha).1 (Model.mem_classed.1 hb).1
    (hplain a ha) (hplain b hb) hname

end Exporter

namespace Description

theorem built_of_ofElement {root : Xml.Element} {m : Model} (h : ofElement root = .ok m) :
    m.Built := by
  unfold ofElement at h
  split at h
  · cases h
  · obtain ⟨⟨forest, declarations⟩, _, h⟩ := bind_eq_ok.1 h
    dsimp only at h
    split at h
    · cases h
    · obtain rfl := Except.ok.inj h
      exact Model.built_ofForest declarations forest

end Description

/-- **With hierarchical names no class is shared**, where siblings have different names and the
names on the way to each component are plain: every component gets a class of its own. -/
theorem Exporter.hierarchical_never_shares {root : Xml.Element} {m : Model} {e : Exporter}
    {top : Nat} {output : String} {layer : Layer} (hread : Description.ofElement root = .ok m)
    (hm : m.DistinctSiblings) (hstyle : e.options.shareClasses = false)
    (hok : (e.render m top output).outcome = .ok layer)
    (hplain : ∀ h ∈ m.classed top, ∀ a ∈ m.trail top h,
      Text.Plain Naming.separator (m.name a)) :
    layer.reused = 0 ∧ layer.classes = (m.classed top).length := by
  have hbuilt : m.Built := Description.built_of_ofElement hread
  have hzero : layer.reused = 0 :=
    (reused_eq_zero_iff hbuilt hok).2 (nodup_classNames_of_plain hbuilt.forest hm hstyle hplain)
  have hall := classes_add_reused hbuilt hok
  exact ⟨hzero, by omega⟩

/-! ### Two registers of one type, and two ways that join to one name -/

/-- An exporter of hierarchical names. -/
def byPath : Exporter := ⟨{ shareClasses := false }, ""⟩

/-- The design a text describes, with its layer under hierarchical names. -/
def layerByPath (text : String) : Except Failure (Model × Layer) :=
  byPath.withLayer (Description.read text) 0 "soc_pkg.sv"

/-- Two registers of one declaration, side by side. -/
def twinRegisters : String :=
  "<model><addrmap name=\"t\"><reg name=\"a\" def=\"r\"/><reg name=\"b\" def=\"r\"/></addrmap>" ++
    "</model>"

theorem layerByPath_twinRegisters :
    (fun r : Model × Layer => (decide r.1.DistinctSiblings,
      decide (∀ h ∈ r.1.classed 0, ∀ a ∈ r.1.trail 0 h, Text.Plain Naming.separator (r.1.name a)),
      (r.1.classed 0).length)) <$> layerByPath twinRegisters = .ok (true, true, 3) := by
  decide +kernel

/-- The map and its two registers get three classes, although the registers are of one type. -/
theorem Exporter.hierarchical_never_shares_twinRegisters :
    ∃ m layer, Description.read twinRegisters = .ok m ∧
      (byPath.render m 0 "soc_pkg.sv").outcome = .ok layer ∧ m.DistinctSiblings ∧
      layer.reused = 0 ∧ layer.classes = 3 := by
  obtain ⟨⟨m, layer⟩, hok, hfacts⟩ := map_eq_ok.1 layerByPath_twinRegisters
  obtain ⟨hread, hrender⟩ := Exporter.withLayer_eq_ok.1 hok
  obtain ⟨hdistinct, hplain, hlen⟩ := by simpa only [Prod.mk.injEq, decide_eq_true_eq] using hfacts
  obtain ⟨root, _, hroot⟩ := Description.read_eq_ok_iff.1 hread
  obtain ⟨hreused, hclasses⟩ := hierarchical_never_shares hroot hdistinct rfl hrender hplain
  exact ⟨m, layer, hread, hrender, hdistinct, hreused, hclasses.trans hlen⟩

/-- Two registers of one declaration at the ends of two ways whose names join to the same name. -/
def crossedWays : String :=
  "<model><addrmap name=\"t\"><addrmap name=\"a\"><reg name=\"b__c\" def=\"r\"/></addrmap>" ++
    "<addrmap name=\"a__b\"><reg name=\"c\" def=\"r\"/></addrmap></addrmap></model>"

theorem layerByPath_crossedWays :
    (fun r : Model × Layer => (decide r.1.DistinctSiblings, (r.1.kind 0).isAddrmap,
      r.2.reused)) <$> layerByPath crossedWays = .ok (true, true, 1) := by
  decide +kernel

/-- **Hierarchical names do share a class** where two ways of different names join to one name: the
two components are of one declaration, and so nobody takes the name for a collision. -/
theorem Exporter.hierarchical_can_share :
    ¬∀ (text : String) (m : Model) (e : Exporter) (top : Nat) (output : String) (layer : Layer),
      Description.read text = .ok m → m.DistinctSiblings → (m.kind top).isAddrmap = true →
      e.options.shareClasses = false → (e.render m top output).outcome = .ok layer →
      layer.reused = 0 ∧ layer.classes = (m.classed top).length := by
  intro hall
  obtain ⟨⟨m, layer⟩, hok, hfacts⟩ := map_eq_ok.1 layerByPath_crossedWays
  obtain ⟨hread, hrender⟩ := Exporter.withLayer_eq_ok.1 hok
  obtain ⟨hdistinct, hmap, hreused⟩ := by
    simpa only [Prod.mk.injEq, decide_eq_true_eq] using hfacts
  have hzero := (hall crossedWays m byPath 0 "soc_pkg.sv" layer hread hdistinct hmap rfl hrender).1
  omega

end RegLayer
