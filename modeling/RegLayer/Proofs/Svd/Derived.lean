/-
# `RegLayer.Proofs.Svd.Derived` — peripherals that are like another one

A peripheral without registers of its own has those of its base.  Whether it also has its base's
types is settled by the properties in force (`inForce`):

    it changes none    both are imported under one key, and then everything inside them comes out
                       the same, declarations included, because a key settles the type
                       (`Part.tree_unique`)
    it changes one     it is imported under its own name, and all that is used inside has a label
                       that begins with the name of the peripheral (`Part.uses_tree`)

Where names differ and hold no colon, no label begins with both names, so in the second case the
two peripherals have no type in common (`derived_shares_or_parts`).

Taken as given: the device was imported.  The condition on names is used for the second case only.
-/
import RegLayer.Proofs.Svd.Origins

namespace RegLayer

/-- The node is of the declared type, or its type is declared inside that one. -/
def Node.Uses (n : Node) (i : DeclId) : Prop :=
  n.decl = some i ∨ n.scope = some (.inside i)

namespace Model

/-- Two nodes of one type: what is below them is equal in everything but the handles. -/
structure SameType (m : Model) (a b : Nat) : Prop where
  typeName_eq : (m.node a).typeName = (m.node b).typeName
  decl_eq : (m.node a).decl = (m.node b).decl
  scope_eq : (m.node a).scope = (m.node b).scope
  below_eq : (m.children a).map m.unfold = (m.children b).map m.unfold

/-- No declaration is used both from the one node downwards and from the other. -/
def ApartTypes (m : Model) (a b : Nat) : Prop :=
  ∀ x ∈ m.postorder a, ∀ y ∈ m.postorder b, ∀ i, (m.node x).Uses i → ¬(m.node y).Uses i

theorem subtree_unfold {m : Model} {a h : Nat} (ha : a ∈ m.postorder h) :
    (m.unfold a).Subtree (m.unfold h) := by
  induction h using m.induct_children with
  | step h ih =>
    rw [postorder_eq, List.mem_append, List.mem_singleton] at ha
    rw [unfold_eq m h]
    rcases ha with ha | rfl
    · obtain ⟨c, hc, hac⟩ := List.mem_flatMap.1 ha
      exact .child (List.mem_map_of_mem hc) (ih c hc hac)
    · rw [unfold_eq]
      exact .self

end Model

namespace Svd

open Declarations

variable {known known' later later' last : Declarations} {around around' : Surroundings}
  {t t' : Tree Node}

/-! ## One key, one type -/

mutual

/-- **The type and the properties around a part settle what is imported for it**, declarations
included, wherever and whenever that is. -/
theorem Part.tree_unique : ∀ (p : Part) {around around' : Surroundings}
    {known later known' later' : Declarations} {t t' : Tree Node},
    around.defaults = around'.defaults → around.scope = around'.scope →
      Gives (Part.tree around p) known t later → Gives (Part.tree around' p) known' t' later' →
      Grows later last → Grows later' last → t = t'
  | .register r, around, around', _, _, _, _, _, _, hsame, hscope, h, h', hlast, hlast' => by
    obtain ⟨inner, nodes, hinner, hnodes, rfl⟩ := gives_register h
    obtain ⟨inner', nodes', hinner', hnodes', rfl⟩ := gives_register h'
    rw [← hscope] at hinner'
    obtain rfl : inner = inner' := hinner.unique hinner' hlast hlast'
    rw [Register.fieldNodes_unique hsame hnodes hnodes', Register.fieldDefaults_eq hsame]
    unfold Register.node
    rw [hscope]
  | .cluster c parts, around, around', _, _, _, _, _, _, hsame, hscope, h, h', hlast, hlast' => by
    obtain ⟨scope, mid, ts, hdeclared, hts, rfl⟩ := gives_cluster h
    obtain ⟨scope', mid', ts', hdeclared', hts', rfl⟩ := gives_cluster h'
    have hmid := (Part.keyed_trees parts hts).1.trans hlast
    have hmid' := (Part.keyed_trees parts hts').1.trans hlast'
    rw [← hscope] at hdeclared'
    obtain rfl : scope = scope' := hdeclared.unique hdeclared' hmid hmid'
    have hinside : (c.inside around scope).defaults = (c.inside around' scope).defaults :=
      congrArg (·.inherit c.own) hsame
    rw [Part.trees_unique parts hinside rfl hts hts' hlast hlast']
    unfold Cluster.node
    rw [hscope]

theorem Part.trees_unique : ∀ (ps : List Part) {around around' : Surroundings}
    {known later known' later' : Declarations} {ts ts' : List (Tree Node)},
    around.defaults = around'.defaults → around.scope = around'.scope →
      Gives (Part.trees around ps) known ts later →
      Gives (Part.trees around' ps) known' ts' later' →
      Grows later last → Grows later' last → ts = ts'
  | [], _, _, _, _, _, _, _, _, _, _, h, h', _, _ => by
    obtain ⟨rfl, _⟩ := gives_pure.1 h
    obtain ⟨rfl, _⟩ := gives_pure.1 h'
    rfl
  | p :: ps, _, _, _, _, _, _, _, _, hsame, hscope, h, h', hlast, hlast' => by
    obtain ⟨t, mid, rest, ht, hrest, rfl⟩ := gives_trees_cons h
    obtain ⟨t', mid', rest', ht', hrest', rfl⟩ := gives_trees_cons h'
    have hmid := (Part.keyed_trees ps hrest).1.trans hlast
    have hmid' := (Part.keyed_trees ps hrest').1.trans hlast'
    rw [Part.tree_unique p hsame hscope ht ht' hmid hmid',
      Part.trees_unique ps hsame hscope hrest hrest' hlast hlast']

end

/-! ## Labels begin with the type around -/

/-- The label of the declaration is the key, or the key with names joined to it. -/
def Under (known : Declarations) (key : String) (i : DeclId) : Prop :=
  ∃ names : List String, known.label? i = some (Text.join "::" (key :: names))

theorem under_of_label {key : String} {i : DeclId} (h : known.label? i = some key) :
    Under known key i :=
  ⟨[], h.trans (congrArg some (Text.join_singleton "::" key).symm)⟩

theorem Under.mono {key : String} {i : DeclId} (h : Under known key i)
    (hgrows : Grows known later) : Under later key i := by
  obtain ⟨names, hlabel⟩ := h
  exact ⟨names, hgrows.label? hlabel⟩

theorem Under.of_longer {key name : String} {i : DeclId}
    (h : Under known (key ++ "::" ++ name) i) : Under known key i := by
  obtain ⟨names, hlabel⟩ := h
  exact ⟨name :: names, hlabel.trans (congrArg some (Text.join_append_cons ..))⟩

theorem under_of_uses {n : Node} {name : String} {inner : TypeScope} {i : DeclId}
    (hinner : Declared known (around.scope.key ++ "::" ++ name) inner later)
    (hscope : n.scope = some (.inside around.scope.decl)) (hdecl : n.decl = some inner.decl)
    (haround : known.label? around.scope.decl = some around.scope.key) (hi : n.Uses i) :
    Under later around.scope.key i := by
  rcases hi with hi | hi
  · obtain rfl := Option.some.inj (hdecl.symm.trans hi)
    exact (under_of_label hinner.label).of_longer
  · obtain rfl := Scope.inside.inj (Option.some.inj (hscope.symm.trans hi))
    exact under_of_label (hinner.grows.label? haround)

mutual

/-- **All declarations that are used inside a type have its key at the start of their labels.** -/
theorem Part.uses_tree : ∀ (p : Part) {around : Surroundings} {known later : Declarations}
    {t : Tree Node}, Gives (Part.tree around p) known t later →
      known.label? around.scope.decl = some around.scope.key →
      ∀ s : Tree Node, s.Subtree t → ∀ i, s.label.Uses i → Under later around.scope.key i
  | .register r, around, known, later, t, h, haround, s, hs, i, hi => by
    obtain ⟨inner, nodes, hinner, hnodes, rfl⟩ := gives_register h
    rcases Tree.subtree_node_iff.1 hs with rfl | ⟨leaf, hleaf, hs⟩
    · exact under_of_uses hinner rfl rfl haround hi
    · obtain ⟨n, hn, rfl⟩ := List.mem_map.1 hleaf
      have huntyped := Register.untyped_of_mem_fieldNodes hnodes hn
      rcases Tree.subtree_node_iff.1 hs with rfl | ⟨_, hnone, _⟩
      · rcases hi with hi | hi
        · exact absurd (huntyped.decl.symm.trans hi) nofun
        · exact absurd (huntyped.scope.symm.trans hi) nofun
      · exact absurd hnone List.not_mem_nil
  | .cluster c parts, around, known, later, t, h, haround, s, hs, i, hi => by
    obtain ⟨scope, mid, ts, hdeclared, hts, rfl⟩ := gives_cluster h
    rcases Tree.subtree_node_iff.1 hs with rfl | ⟨t, ht, hs⟩
    · exact (under_of_uses hdeclared rfl rfl haround hi).mono (Part.keyed_trees parts hts).1
    · have hkey : (c.inside around scope).scope.key =
          around.scope.key ++ "::" ++ bareName c.name := hdeclared.key_eq
      have hlabel : mid.label? (c.inside around scope).scope.decl =
          some (c.inside around scope).scope.key := hkey ▸ hdeclared.label
      have hunder := Part.uses_trees parts hts hlabel t ht s hs i hi
      rw [hkey] at hunder
      exact hunder.of_longer

theorem Part.uses_trees : ∀ (ps : List Part) {around : Surroundings}
    {known later : Declarations} {ts : List (Tree Node)},
    Gives (Part.trees around ps) known ts later →
      known.label? around.scope.decl = some around.scope.key →
      ∀ t ∈ ts, ∀ s : Tree Node, s.Subtree t → ∀ i, s.label.Uses i →
        Under later around.scope.key i
  | [], _, known, _, _, h, _, t, ht, _, _, _, _ => by
    obtain ⟨rfl, rfl⟩ := gives_pure.1 h
    exact absurd ht List.not_mem_nil
  | p :: ps, around, known, later, ts, h, haround, u, hu, s, hs, i, hi => by
    obtain ⟨t, mid, rest, ht, hrest, rfl⟩ := gives_trees_cons h
    rcases List.mem_cons.1 hu with rfl | hu
    · exact (Part.uses_tree p ht haround s hs i hi).mono (Part.keyed_trees ps hrest).1
    · have hlabel := (Part.keyed_tree p ht).1.label? haround
      exact Part.uses_trees ps hrest hlabel u hu s hs i hi

end

/-! ## A peripheral and its base -/

namespace Device

variable {d : Device} {p b source : Peripheral} {m : Model}

theorem uses_peripheral (h : Gives (d.peripheralTree p) known t later)
    (hsource : d.source p = .ok source) {s : Tree Node} (hs : s.Subtree t) {i : DeclId}
    (hi : s.label.Uses i) : Under later (d.typeName source p) i := by
  obtain ⟨source', scope, mid, ts, hsource', hdeclared, hts, rfl⟩ := gives_peripheral h
  obtain rfl : source = source' := Except.ok.inj (hsource.symm.trans hsource')
  have hgrows := (Part.keyed_trees _ hts).1
  rcases Tree.subtree_node_iff.1 hs with rfl | ⟨t, ht, hs⟩
  · rcases hi with hi | hi
    · obtain rfl := Option.some.inj hi
      exact under_of_label (hgrows.label? hdeclared.label)
    · cases hi
  · have hunder := Part.uses_trees _ hts (hdeclared.key_eq ▸ hdeclared.label) t ht s hs i hi
    exact hdeclared.key_eq ▸ hunder

theorem peripheral_unique (h : Gives (d.peripheralTree p) known t later)
    (h' : Gives (d.peripheralTree b) known' t' later') (hlast : Grows later last)
    (hlast' : Grows later' last) (hsource : d.source p = .ok source)
    (hsource' : d.source b = .ok source)
    (hdefaults : d.defaultsIn source p = d.defaultsIn source b)
    (hname : d.typeName source p = d.typeName source b) :
    t.label.typeName = t'.label.typeName ∧ t.label.decl = t'.label.decl ∧
      t.label.scope = t'.label.scope ∧ t.children = t'.children := by
  obtain ⟨s₁, scope, mid, ts, hs₁, hdeclared, hts, rfl⟩ := gives_peripheral h
  obtain ⟨s₂, scope', mid', ts', hs₂, hdeclared', hts', rfl⟩ := gives_peripheral h'
  obtain rfl : source = s₁ := Except.ok.inj (hsource.symm.trans hs₁)
  obtain rfl : source = s₂ := Except.ok.inj (hsource'.symm.trans hs₂)
  rw [← hname] at hdeclared'
  obtain rfl : scope = scope' := hdeclared.unique hdeclared'
    ((Part.keyed_trees _ hts).1.trans hlast) ((Part.keyed_trees _ hts').1.trans hlast')
  have hchildren : ts = ts' := by
    refine Part.trees_unique (source.parts.getD []) ?_ ?_ hts hts' hlast hlast'
    · exact hdefaults
    · rfl
  exact ⟨rfl, rfl, rfl, hchildren⟩

theorem source_of_base {base : String} (hbase : p.base = some base) (hparts : p.parts = none)
    (h : d.source p = .ok b) :
    d.peripherals.find? (·.name == base) = some b ∧ d.source b = .ok b ∧ b ≠ p := by
  obtain ⟨hfound, hown⟩ := found_of_source hbase hparts h
  refine ⟨hfound, source_self hown, ?_⟩
  rintro rfl
  have hnone := hown hparts
  rw [hbase] at hnone
  cases hnone

theorem typeName_self (d : Device) (b : Peripheral) : d.typeName b b = b.name := by
  unfold typeName
  split <;> rfl

theorem gives_of_getElem? (hok : d.model.outcome = .ok m) :
    ∃ last : Declarations, ∀ (i : Nat) (p : Peripheral), d.peripherals[i]? = some p →
      ∃ h known later, (m.children deviceMap)[i]? = some h ∧
        Gives (d.peripheralTree p) known (m.unfold h) later ∧ Grows later last := by
  obtain ⟨whole, last, hgives, rfl⟩ := gives_of_model hok
  obtain ⟨scope, mid, ts, _, _, hperipherals, rfl⟩ := gives_device hgives
  have hunfold := Model.unfold_zero_ofForest (d := last) (.node (d.node scope.decl) ts)
  rw [Model.unfold_eq] at hunfold
  obtain ⟨_, hts⟩ := Tree.node.inj hunfold
  rw [← hts, List.forall₂_map_right_iff] at hperipherals
  refine ⟨last, fun i p hp => ?_⟩
  obtain ⟨h, hh, known, later, hpart⟩ := forall₂_getElem? hperipherals hp
  exact ⟨h, known, later, hh, hpart⟩

theorem sameType_of_eq {hp hb : Nat} (h : Gives (d.peripheralTree p) known (m.unfold hp) later)
    (h' : Gives (d.peripheralTree b) known' (m.unfold hb) later') (hlast : Grows later last)
    (hlast' : Grows later' last) (hsource : d.source p = .ok b) (hown : d.source b = .ok b)
    (hsame : d.defaultsIn b p = d.defaults.inherit b.own) : m.SameType hp hb := by
  have hdefaults : d.defaultsIn b p = d.defaultsIn b b :=
    hsame.trans (Defaults.inherit_self _ _).symm
  have hname : d.typeName b p = d.typeName b b := by
    rw [typeName_self]
    exact if_pos hsame
  have hunique := peripheral_unique h h' hlast hlast' hsource hown hdefaults hname
  rw [Model.unfold_eq, Model.unfold_eq] at hunique
  exact ⟨hunique.1, hunique.2.1, hunique.2.2.1, hunique.2.2.2⟩

theorem apartTypes_of_ne {hp hb : Nat} (h : Gives (d.peripheralTree p) known (m.unfold hp) later)
    (h' : Gives (d.peripheralTree b) known' (m.unfold hb) later') (hlast : Grows later last)
    (hlast' : Grows later' last) (hsource : d.source p = .ok b) (hown : d.source b = .ok b)
    (hother : d.defaultsIn b p ≠ d.defaults.inherit b.own) (hnames : p.name ≠ b.name)
    (hp' : Text.Plain "::" p.name) (hb' : Text.Plain "::" b.name) : m.ApartTypes hp hb := by
  intro x hx y hy i hxi hyi
  rw [← Model.label_unfold] at hxi hyi
  have hunder := (uses_peripheral h hsource (Model.subtree_unfold hx) hxi).mono hlast
  have hunder' := (uses_peripheral h' hown (Model.subtree_unfold hy) hyi).mono hlast'
  have hname : d.typeName b p = p.name := if_neg hother
  rw [hname] at hunder
  rw [typeName_self] at hunder'
  obtain ⟨names, hlabel⟩ := hunder
  obtain ⟨names', hlabel'⟩ := hunder'
  have hkeys := Option.some.inj (hlabel.symm.trans hlabel')
  exact hnames (Text.join_cons_inj hp' hb' hkeys).1

/-- **A derived peripheral shares its base's types exactly when it may.**  Its base is the first
peripheral of the name that it gives.  If its own properties leave those in force in the base what
they are, the two have one type, and everything below them is the same; otherwise, where the names
of peripherals differ and hold no colon, no declaration is used in both. -/
theorem derived_shares_or_parts (hok : d.model.outcome = .ok m) {i : Nat} {base : String}
    (hp : d.peripherals[i]? = some p) (hbase : p.base = some base) (hparts : p.parts = none) :
    ∃ before b after h g, d.peripherals = before ++ b :: after ∧
      b.name = base ∧ (∀ q ∈ before, q.name ≠ base) ∧
      (m.children deviceMap)[i]? = some h ∧ (m.node h).name = p.name ∧
      (m.children deviceMap)[before.length]? = some g ∧ (m.node g).name = b.name ∧
      (inForce [p.own, b.own, d.own] = inForce [b.own, d.own] → m.SameType h g) ∧
      (inForce [p.own, b.own, d.own] ≠ inForce [b.own, d.own] →
        (d.peripherals.map (·.name)).Nodup → (∀ q ∈ d.peripherals, ':' ∉ q.name.toList) →
        m.ApartTypes h g) := by
  obtain ⟨last, hplaces⟩ := gives_of_getElem? hok
  obtain ⟨h, known, later, hh, hgives, hlast⟩ := hplaces i p hp
  obtain ⟨b, _, _, _, hsource, _, _, htree⟩ := gives_peripheral hgives
  obtain ⟨hfound, hown, hne⟩ := source_of_base hbase hparts hsource
  obtain ⟨hname, before, after, hsplit, hbefore⟩ := List.find?_eq_some_iff_append.1 hfound
  have hb : d.peripherals[before.length]? = some b := by
    rw [hsplit]
    simp
  obtain ⟨g, known', later', hg, hgives', hlast'⟩ := hplaces before.length b hb
  obtain ⟨_, _, _, _, _, _, _, htree'⟩ := gives_peripheral hgives'
  have hnode : (m.node h).name = p.name := by
    rw [← Model.label_unfold, htree]
    rfl
  have hnode' : (m.node g).name = b.name := by
    rw [← Model.label_unfold, htree']
    rfl
  -- The properties that the import compares are those in force in the two peripherals.
  have hinbase : d.defaults.inherit b.own = inForce [b.own, d.own] := by
    rw [defaults_eq, ← inForce_cons]
  have hinside : d.defaultsIn b p = inForce [p.own, b.own, d.own] := by
    rw [defaultsIn, hinbase, ← inForce_cons]
  refine ⟨before, b, after, h, g, hsplit, by simpa using hname,
    fun q hq => by simpa using hbefore q hq, hh, hnode, hg, hnode', fun hsame => ?_,
    fun hother hnodup hcolon => ?_⟩
  · rw [← hinbase, ← hinside] at hsame
    exact sameType_of_eq hgives hgives' hlast hlast' hsource hown hsame
  · rw [← hinbase, ← hinside] at hother
    have hpmem : p ∈ d.peripherals := List.mem_of_getElem? hp
    have hbmem : b ∈ d.peripherals := List.mem_of_getElem? hb
    have hnames : p.name ≠ b.name := fun heq =>
      hne (List.inj_on_of_nodup_map hnodup hbmem hpmem heq.symm)
    exact apartTypes_of_ne hgives hgives' hlast hlast' hsource hown hother hnames
      (Text.plain_of_not_mem rfl (hcolon p hpmem)) (Text.plain_of_not_mem rfl (hcolon b hbmem))

/-! ### Two copies of an interface, one of them narrower -/

theorem model_uartBoard : uartBoard.model.outcome.isOk = true := by
  decide +kernel

theorem eq_uartBlock {before after : List Peripheral}
    (hsplit : uartBoard.peripherals = before ++ b :: after)
    (hbefore : ∀ q ∈ before, q.name ≠ "UART0") : b = uartBlock := by
  cases before with
  | nil => exact (List.cons.inj hsplit).1.symm
  | cons q rest =>
    obtain rfl : uartBlock = q := (List.cons.inj hsplit).1
    exact absurd rfl (hbefore uartBlock List.mem_cons_self)

/-- The second peripheral is of the first one's type; the third changes the size, and shares
nothing. -/
theorem derived_shares_or_parts_uartBoard :
    ∃ m, uartBoard.model.outcome = .ok m ∧
      (∃ h g, (m.node h).name = "UART1" ∧ (m.node g).name = "UART0" ∧ m.SameType h g) ∧
      ∃ h g, (m.node h).name = "UART2" ∧ (m.node g).name = "UART0" ∧ m.ApartTypes h g := by
  obtain ⟨m, hok⟩ := isOk_iff.1 model_uartBoard
  obtain ⟨before, b, after, h, g, hsplit, _, hbefore, _, hname, _, hname', hsame, _⟩ :=
    derived_shares_or_parts hok (i := 1) rfl rfl rfl
  obtain ⟨before₂, b₂, after₂, h₂, g₂, hsplit₂, _, hbefore₂, _, hname₂, _, hname₂', _, hapart⟩ :=
    derived_shares_or_parts hok (i := 2) rfl rfl rfl
  obtain rfl := eq_uartBlock hsplit hbefore
  obtain rfl := eq_uartBlock hsplit₂ hbefore₂
  have hcolon : ∀ q ∈ uartBoard.peripherals, ':' ∉ q.name.toList := by decide +kernel
  refine ⟨m, hok, ⟨h, g, hname, hname', hsame (by decide +kernel)⟩, h₂, g₂, hname₂, hname₂', ?_⟩
  exact hapart (by decide +kernel) (by decide +kernel) hcolon

end Device

end Svd

end RegLayer
