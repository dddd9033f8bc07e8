/-
# `RegLayer.Proofs.Svd.Parts` — registers and clusters behind their keys

A register or cluster is declared under the names on the way down to it.  Two facts make that a
good key.

What is imported for a part depends on the part and the properties around it, and on nothing else
that surrounds it: its path, which the messages tell, and its declarations, which differ
from import to import, leave no trace in the outline (`Part.outline_tree`).  And where names side by
side differ, the way down leads to one part only (`Part.At.unique`).

Both are inductions over a part and a list of parts.  They are about successes only; in which ways
a part can fail is `RegLayer.Proofs.Svd.Totality`.
-/
import RegLayer.Proofs.Model.Planted
import RegLayer.Proofs.Svd.Importing
import RegLayer.Proofs.Text.Join

namespace RegLayer.Svd

open Declarations

/-! ## Fields -/

section Fields

variable {d : FieldDefaults} {f : Field} {n : Node} {nodes : List Node}

theorem FieldDefaults.check_path {name : String} {lsb width : UInt32} {u : Unit} (path : String)
    (h : d.check name lsb width = .ok u) :
    FieldDefaults.check { d with path := path } name lsb width = .ok u := by
  obtain ⟨end_, hend, h⟩ := bind_eq_ok.1 h
  refine bind_eq_ok.2 ⟨end_, hend, ?_⟩
  dsimp only at h ⊢
  split at h
  · cases h
  · next hinside => rw [if_neg hinside]; exact h

theorem Field.nodeAt_path {name : String} {lsb : UInt32} (path : String)
    (h : f.nodeAt d name lsb = .ok n) :
    f.nodeAt { d with path := path } name lsb = .ok n := by
  obtain ⟨u, hcheck, h⟩ := bind_eq_ok.1 h
  exact bind_eq_ok.2 ⟨u, FieldDefaults.check_path path hcheck, h⟩

theorem Field.indices_path {r : Repetition} {is : List String} (path : String)
    (h : f.indices d r = .ok is) : f.indices { d with path := path } r = .ok is := by
  unfold indices at h ⊢
  split at h
  · exact h
  · split at h
    · next hcount => rw [if_pos hcount]; exact h
    · cases h

theorem Field.repeated_path {r : Repetition} {which : String × Nat} (path : String)
    (h : f.repeated d r which = .ok n) :
    f.repeated { d with path := path } r which = .ok n := by
  obtain ⟨step, hstep, h⟩ := bind_eq_ok.1 h
  obtain ⟨lsb, hlsb, h⟩ := bind_eq_ok.1 h
  exact bind_eq_ok.2 ⟨step, hstep, bind_eq_ok.2 ⟨lsb, hlsb, Field.nodeAt_path path h⟩⟩

theorem Field.nodes_path (path : String) (h : f.nodes d = .ok nodes) :
    f.nodes { d with path := path } = .ok nodes := by
  unfold Field.nodes at h ⊢
  split at h
  · obtain ⟨n, hn, h⟩ := bind_eq_ok.1 h
    exact bind_eq_ok.2 ⟨n, Field.nodeAt_path path hn, h⟩
  · obtain ⟨is, his, h⟩ := bind_eq_ok.1 h
    exact bind_eq_ok.2 ⟨is, Field.indices_path path his,
      mapM_eq_ok_of_imp (fun _ _ => Field.repeated_path path) h⟩

theorem Register.fieldNodes_path {r : Register} (path : String) (h : r.fieldNodes d = .ok nodes) :
    r.fieldNodes { d with path := path } = .ok nodes := by
  unfold fieldNodes at h ⊢
  split at h
  · exact h
  · obtain ⟨nss, hnss, h⟩ := bind_eq_ok.1 h
    exact bind_eq_ok.2 ⟨nss, mapM_eq_ok_of_imp (fun _ _ => Field.nodes_path path) hnss, h⟩

/-- No type is declared for the node. -/
structure Untyped (n : Node) : Prop where
  decl : n.decl = none
  scope : n.scope = none

/-! No type is declared for a field. -/

theorem Field.untyped_of_nodeAt {name : String} {lsb : UInt32} (h : f.nodeAt d name lsb = .ok n) :
    Untyped n := by
  obtain ⟨_, _, h⟩ := bind_eq_ok.1 h
  cases h
  exact ⟨rfl, rfl⟩

theorem Field.untyped_of_repeated {r : Repetition} {which : String × Nat}
    (h : f.repeated d r which = .ok n) : Untyped n := by
  obtain ⟨_, _, h⟩ := bind_eq_ok.1 h
  obtain ⟨_, _, h⟩ := bind_eq_ok.1 h
  exact untyped_of_nodeAt h

theorem Field.untyped_of_mem_nodes (h : f.nodes d = .ok nodes) (hn : n ∈ nodes) : Untyped n := by
  unfold Field.nodes at h
  split at h
  · obtain ⟨n', hn', h⟩ := bind_eq_ok.1 h
    cases h
    obtain rfl := List.mem_singleton.1 hn
    exact untyped_of_nodeAt hn'
  · obtain ⟨is, _, h⟩ := bind_eq_ok.1 h
    obtain ⟨which, _, hwhich⟩ := exists_of_mem_mapM h hn
    exact untyped_of_repeated hwhich

theorem Register.untyped_of_mem_fieldNodes {r : Register} (h : r.fieldNodes d = .ok nodes)
    (hn : n ∈ nodes) : Untyped n := by
  unfold fieldNodes at h
  split at h
  · cases h
    obtain rfl := List.mem_singleton.1 hn
    exact ⟨rfl, rfl⟩
  · obtain ⟨nss, hnss, h⟩ := bind_eq_ok.1 h
    cases h
    obtain ⟨ns, hns, hn⟩ := List.mem_flatten.1 hn
    obtain ⟨f, _, hf⟩ := exists_of_mem_mapM hnss hns
    exact Field.untyped_of_mem_nodes hf hn

end Fields

/-! ## What is imported for a part -/

variable {around around' : Surroundings} {known later known' later' : Declarations}
  {t t' : Tree Node}

theorem gives_register {r : Register} (h : Gives (r.tree around) known t later) :
    ∃ inner nodes, Declared known (around.scope.key ++ "::" ++ bareName r.name) inner later ∧
      r.fieldNodes (r.fieldDefaults around) = .ok nodes ∧
      t = .node (r.node around inner.decl (r.fieldDefaults around).width)
        (nodes.map (.node · [])) := by
  obtain ⟨inner, mid, hinner, h⟩ := gives_bind.1 h
  obtain ⟨nodes, mid', hnodes, h⟩ := gives_bind.1 h
  obtain ⟨hok, rfl⟩ := gives_lift.1 hnodes
  obtain ⟨rfl, rfl⟩ := gives_pure.1 h
  exact ⟨inner, nodes, declared_of_declare hinner, hok, rfl⟩

theorem gives_cluster {c : Cluster} {parts : List Part}
    (h : Gives (Part.tree around (.cluster c parts)) known t later) :
    ∃ scope mid ts, Declared known (around.scope.key ++ "::" ++ bareName c.name) scope mid ∧
      Gives (Part.trees (c.inside around scope) parts) mid ts later ∧
      t = .node (c.node around scope.decl) ts := by
  rw [Part.tree] at h
  obtain ⟨scope, mid, hscope, h⟩ := gives_bind.1 h
  obtain ⟨ts, mid', hts, h⟩ := gives_bind.1 h
  obtain ⟨rfl, rfl⟩ := gives_pure.1 h
  exact ⟨scope, mid, ts, declared_of_cluster hscope, hts, rfl⟩

theorem gives_trees_cons {p : Part} {ps : List Part} {ts : List (Tree Node)}
    (h : Gives (Part.trees around (p :: ps)) known ts later) :
    ∃ t mid rest, Gives (Part.tree around p) known t mid ∧
      Gives (Part.trees around ps) mid rest later ∧ ts = t :: rest := by
  rw [Part.trees] at h
  obtain ⟨t, mid, ht, h⟩ := gives_bind.1 h
  obtain ⟨rest, mid', hrest, h⟩ := gives_bind.1 h
  obtain ⟨rfl, rfl⟩ := gives_pure.1 h
  exact ⟨t, mid, rest, ht, hrest, rfl⟩

theorem Register.fieldDefaults_eq {r : Register} (hsame : around.defaults = around'.defaults) :
    r.fieldDefaults around' =
      { r.fieldDefaults around with path := (r.fieldDefaults around').path } := by
  unfold fieldDefaults
  rw [hsame]

theorem Register.fieldNodes_unique {r : Register} {nodes nodes' : List Node}
    (hsame : around.defaults = around'.defaults)
    (h : r.fieldNodes (r.fieldDefaults around) = .ok nodes)
    (h' : r.fieldNodes (r.fieldDefaults around') = .ok nodes') : nodes = nodes' := by
  have hagain := fieldNodes_path (r.fieldDefaults around').path h
  rw [← fieldDefaults_eq hsame, h'] at hagain
  exact (Except.ok.inj hagain).symm

mutual

/-- **The properties around a part settle what is imported for it**, up to declarations. -/
theorem Part.outline_tree : ∀ (p : Part) {around around' : Surroundings}
    {known later known' later' : Declarations} {t t' : Tree Node},
    around.defaults = around'.defaults → Gives (Part.tree around p) known t later →
      Gives (Part.tree around' p) known' t' later' → Tree.outline t = Tree.outline t'
  | .register r, around, around', _, _, _, _, _, _, hsame, h, h' => by
    obtain ⟨inner, nodes, _, hnodes, rfl⟩ := gives_register h
    obtain ⟨inner', nodes', _, hnodes', rfl⟩ := gives_register h'
    rw [Tree.outline_node, Tree.outline_node, Register.fieldNodes_unique hsame hnodes hnodes',
      Register.fieldDefaults_eq hsame]
    rfl
  | .cluster c parts, around, around', _, _, _, _, _, _, hsame, h, h' => by
    obtain ⟨scope, _, ts, _, hts, rfl⟩ := gives_cluster h
    obtain ⟨scope', _, ts', _, hts', rfl⟩ := gives_cluster h'
    have hinside : (c.inside around scope).defaults = (c.inside around' scope').defaults :=
      congrArg (·.inherit c.own) hsame
    rw [Tree.outline_node, Tree.outline_node, Part.outline_trees parts hinside hts hts']
    rfl

theorem Part.outline_trees : ∀ (ps : List Part) {around around' : Surroundings}
    {known later known' later' : Declarations} {ts ts' : List (Tree Node)},
    around.defaults = around'.defaults → Gives (Part.trees around ps) known ts later →
      Gives (Part.trees around' ps) known' ts' later' →
      ts.map Tree.outline = ts'.map Tree.outline
  | [], _, _, _, _, _, _, _, _, _, h, h' => by
    obtain ⟨rfl, _⟩ := gives_pure.1 h
    obtain ⟨rfl, _⟩ := gives_pure.1 h'
    rfl
  | p :: ps, _, _, _, _, _, _, _, _, hsame, h, h' => by
    obtain ⟨t, _, rest, ht, hrest, rfl⟩ := gives_trees_cons h
    obtain ⟨t', _, rest', ht', hrest', rfl⟩ := gives_trees_cons h'
    rw [List.map_cons, List.map_cons, Part.outline_tree p hsame ht ht',
      Part.outline_trees ps hsame hrest hrest']

end

/-! ## The way down to a part -/

/-- The name of a part, without a place for an index. -/
def Part.name : Part → String
  | .register r => bareName r.name
  | .cluster c _ => bareName c.name

mutual

/-- The lists of parts that stand side by side inside a part. -/
def Part.levelsIn : Part → List (List Part)
  | .register _ => []
  | .cluster _ parts => parts :: Part.levelsInAll parts

/-- The lists of parts that stand side by side inside one of these parts. -/
def Part.levelsInAll : List Part → List (List Part)
  | [] => []
  | p :: ps => Part.levelsIn p ++ Part.levelsInAll ps

end

/-- All lists of parts that stand side by side, from these parts down. -/
def Part.levels (parts : List Part) : List (List Part) :=
  parts :: Part.levelsInAll parts

/-- The names lead from these parts down to a part, around which these properties hold. -/
inductive Part.At : List Part → Defaults → List String → Part → Defaults → Prop
  | here {parts : List Part} {defaults : Defaults} {p : Part} :
      p ∈ parts → At parts defaults [p.name] p defaults
  | inside {parts inner : List Part} {defaults own : Defaults} {c : Cluster} {path : List String}
      {p : Part} :
      .cluster c inner ∈ parts → At inner (defaults.inherit c.own) path p own →
      At parts defaults ((Part.cluster c inner).name :: path) p own

namespace Part

variable {parts inner : List Part} {defaults own own' : Defaults} {path : List String} {p q : Part}

theorem mem_levelsInAll {level : List Part} :
    level ∈ levelsInAll parts ↔ ∃ p ∈ parts, level ∈ levelsIn p := by
  induction parts with
  | nil => simp [levelsInAll]
  | cons p ps ih => simp [levelsInAll, ih]

theorem mem_levels_of_mem_cluster {c : Cluster} (hc : .cluster c inner ∈ parts)
    {level : List Part} (hl : level ∈ levels inner) : level ∈ levels parts :=
  List.mem_cons_of_mem _ (mem_levelsInAll.2 ⟨_, hc, hl⟩)

theorem At.path_ne_nil (h : At parts defaults path p own) : path ≠ [] := by
  cases h <;> exact List.cons_ne_nil _ _

theorem At.of_subset {parts' : List Part} (h : At parts defaults path p own)
    (hsub : parts ⊆ parts') : At parts' defaults path p own := by
  cases h with
  | here hp => exact .here (hsub hp)
  | inside hc h => exact .inside (hsub hc) h

theorem At.forall_mem_path {P : String → Prop} (h : At parts defaults path p own)
    (hP : ∀ level ∈ levels parts, ∀ q ∈ level, P q.name) : ∀ name ∈ path, P name := by
  induction h with
  | here hp =>
    intro name hname
    obtain rfl := List.mem_singleton.1 hname
    exact hP _ List.mem_cons_self _ hp
  | inside hc _ ih =>
    intro name hname
    rcases List.mem_cons.1 hname with rfl | hname
    · exact hP _ List.mem_cons_self _ hc
    · exact ih (fun level hl => hP level (mem_levels_of_mem_cluster hc hl)) name hname

/-- **Names that differ side by side lead to one part only**, and so to one set of properties. -/
theorem At.unique (hdistinct : ∀ level ∈ levels parts, (level.map name).Nodup)
    (h : At parts defaults path p own) (h' : At parts defaults path q own') :
    p = q ∧ own = own' := by
  induction h with
  | @here parts defaults p hp =>
    -- The second way down is split with its names as an equation, so that they can be compared.
    generalize hpath : [p.name] = path at h'
    cases h' with
    | here hq =>
      have hname : p.name = q.name := (List.cons.inj hpath).1
      exact ⟨List.inj_on_of_nodup_map (hdistinct _ List.mem_cons_self) hp hq hname, rfl⟩
    | inside _ h' => exact absurd (List.cons.inj hpath).2.symm h'.path_ne_nil
  | @inside parts inner defaults own c path p hc h ih =>
    generalize hpath : (Part.cluster c inner).name :: path = path' at h'
    cases h' with
    | here _ => exact absurd (List.cons.inj hpath).2 h.path_ne_nil
    | @inside _ inner' _ _ c' path' _ hc' h' =>
      obtain ⟨hname, rfl⟩ := List.cons.inj hpath
      have hsame : Part.cluster c inner = Part.cluster c' inner' :=
        List.inj_on_of_nodup_map (hdistinct _ List.mem_cons_self) hc hc' hname
      obtain ⟨rfl, rfl⟩ := Part.cluster.inj hsame
      exact ih (fun level hl => hdistinct level (mem_levels_of_mem_cluster hc hl)) h'

end Part

/-! ## Keys -/

/-- The tree was imported for a part around which these properties hold. -/
def Part.Makes (p : Part) (own : Defaults) (t : Tree Node) : Prop :=
  ∃ around known later, around.defaults = own ∧ Gives (Part.tree around p) known t later

/-- What stands at the top of a tree that was imported below a key: a field, for which no type is
declared, or what was imported for a part, declared under the names on the way down to it. -/
inductive Part.Keyed (parts : List Part) (defaults : Defaults) (key : String)
    (known : Declarations) (t : Tree Node) : Prop
  | field : t.label.decl = none → Keyed parts defaults key known t
  | part {path : List String} {p : Part} {own : Defaults} {i : DeclId} :
      Part.At parts defaults path p own → p.Makes own t → t.label.decl = some i →
      known.label? i = some (Text.join "::" (key :: path)) → Keyed parts defaults key known t

theorem Part.Keyed.mono {parts parts' : List Part} {defaults : Defaults} {key : String}
    (h : Part.Keyed parts defaults key known t) (hsub : parts ⊆ parts')
    (hgrows : Grows known later) : Part.Keyed parts' defaults key later t := by
  cases h with
  | field hnone => exact .field hnone
  | part hat hmakes hdecl hlabel =>
    exact .part (hat.of_subset hsub) hmakes hdecl (hgrows.label? hlabel)

theorem Part.Keyed.inside {parts inner : List Part} {defaults : Defaults} {key : String}
    {c : Cluster} (hc : .cluster c inner ∈ parts)
    (h : Part.Keyed inner (defaults.inherit c.own) (key ++ "::" ++ bareName c.name) known t) :
    Part.Keyed parts defaults key known t := by
  cases h with
  | field hnone => exact .field hnone
  | part hat hmakes hdecl hlabel =>
    rw [Text.join_append_cons] at hlabel
    exact .part (.inside hc hat) hmakes hdecl hlabel

theorem Part.keyed_top {p : Part} {i : DeclId} (h : Gives (Part.tree around p) known t later)
    (hdecl : t.label.decl = some i)
    (hlabel : later.label? i = some (around.scope.key ++ "::" ++ p.name)) :
    Part.Keyed [p] around.defaults around.scope.key later t := by
  refine .part (.here (List.mem_singleton_self p)) ⟨around, known, later, rfl, h⟩ hdecl ?_
  rw [hlabel, Text.join_cons_cons, Text.join_singleton]

mutual

/-- **Everything that is imported for a part has its key**, and no declaration is lost. -/
theorem Part.keyed_tree : ∀ (p : Part) {around : Surroundings} {known later : Declarations}
    {t : Tree Node}, Gives (Part.tree around p) known t later → Grows known later ∧
      ∀ s : Tree Node, s.Subtree t →
        Part.Keyed [p] around.defaults around.scope.key later s
  | .register r, around, known, later, t, h => by
    obtain ⟨inner, nodes, hinner, hnodes, rfl⟩ := gives_register h
    refine ⟨hinner.grows, fun s hs => ?_⟩
    rcases Tree.subtree_node_iff.1 hs with rfl | ⟨leaf, hleaf, hs⟩
    · exact Part.keyed_top h rfl hinner.label
    · obtain ⟨n, hn, rfl⟩ := List.mem_map.1 hleaf
      rcases Tree.subtree_node_iff.1 hs with rfl | ⟨_, hnone, _⟩
      · exact .field (Register.untyped_of_mem_fieldNodes hnodes hn).decl
      · exact absurd hnone List.not_mem_nil
  | .cluster c parts, around, known, later, t, h => by
    obtain ⟨scope, mid, ts, hscope, hts, rfl⟩ := gives_cluster h
    obtain ⟨hgrows, hinside⟩ := Part.keyed_trees parts hts
    refine ⟨hscope.grows.trans hgrows, fun s hs => ?_⟩
    rcases Tree.subtree_node_iff.1 hs with rfl | ⟨t, ht, hs⟩
    · exact Part.keyed_top h rfl (hgrows.label? hscope.label)
    · have hkeyed := hinside t ht s hs
      rw [Cluster.inside, hscope.key_eq] at hkeyed
      exact hkeyed.inside (List.mem_singleton_self _)

theorem Part.keyed_trees : ∀ (ps : List Part) {around : Surroundings}
    {known later : Declarations} {ts : List (Tree Node)},
    Gives (Part.trees around ps) known ts later → Grows known later ∧
      ∀ t ∈ ts, ∀ s : Tree Node, s.Subtree t →
        Part.Keyed ps around.defaults around.scope.key later s
  | [], _, known, _, _, h => by
    obtain ⟨rfl, rfl⟩ := gives_pure.1 h
    exact ⟨.refl known, fun t ht => absurd ht List.not_mem_nil⟩
  | p :: ps, around, known, later, ts, h => by
    obtain ⟨t, mid, rest, ht, hrest, rfl⟩ := gives_trees_cons h
    obtain ⟨hgrows, hfirst⟩ := Part.keyed_tree p ht
    obtain ⟨hgrows', hothers⟩ := Part.keyed_trees ps hrest
    refine ⟨hgrows.trans hgrows', fun u hu s hs => ?_⟩
    rcases List.mem_cons.1 hu with rfl | hu
    · exact (hfirst s hs).mono (List.cons_subset.2 ⟨List.mem_cons_self, List.nil_subset _⟩) hgrows'
    · exact (hothers u hu s hs).mono (List.subset_cons_self p ps) (.refl later)

end

/-! ## Peripherals and the device -/

namespace Device

variable {d : Device} {p : Peripheral}

theorem gives_peripheral (h : Gives (d.peripheralTree p) known t later) :
    ∃ source scope mid ts, d.source p = .ok source ∧
      Declared known (d.typeName source p) scope mid ∧
      Gives (Part.trees ⟨[d.name, p.name], scope, d.defaultsIn source p⟩
        (source.parts.getD [])) mid ts later ∧
      t = .node (d.peripheralNode source p scope) ts := by
  obtain ⟨source, _, hlift, h⟩ := gives_bind.1 h
  obtain ⟨hsource, rfl⟩ := gives_lift.1 hlift
  obtain ⟨scope, mid, hscope, h⟩ := gives_bind.1 h
  obtain ⟨ts, _, hts, h⟩ := gives_bind.1 h
  obtain ⟨rfl, rfl⟩ := gives_pure.1 h
  exact ⟨source, scope, mid, ts, hsource, declared_of_declare hscope, hts, rfl⟩

theorem grows_peripheral (h : Gives (d.peripheralTree p) known t later) : Grows known later := by
  obtain ⟨_, _, _, _, _, hscope, hts, _⟩ := gives_peripheral h
  exact hscope.grows.trans (Part.keyed_trees _ hts).1

theorem gives_device (h : Gives d.tree known t later) :
    ∃ scope mid ts, Declared known d.name scope mid ∧ Grows mid later ∧
      List.Forall₂ (fun p t => ∃ before after,
        Gives (d.peripheralTree p) before t after ∧ Grows after later) d.peripherals ts ∧
      t = .node (d.node scope.decl) ts := by
  obtain ⟨scope, mid, hscope, h⟩ := gives_bind.1 h
  obtain ⟨ts, _, hts, h⟩ := gives_bind.1 h
  obtain ⟨_, _, hnote, h⟩ := gives_bind.1 h
  obtain ⟨_, rfl⟩ := gives_lift.1 hnote
  obtain ⟨rfl, rfl⟩ := gives_pure.1 h
  obtain ⟨hgrows, hperipherals⟩ := gives_mapM (fun _ _ _ _ _ => grows_peripheral) hts
  exact ⟨scope, mid, ts, declared_of_declare hscope, hgrows, hperipherals, rfl⟩

end Device

end RegLayer.Svd
