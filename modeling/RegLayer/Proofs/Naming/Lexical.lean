/-
# `RegLayer.Proofs.Naming.Lexical` — names after declarations

The lexical name of a node comes from a climb: from the node to the nearest instance around it of
the declaration that its type stands in, from there on in the same way, up to a type that is
declared outside all others (`Outermost`).  Two instances of one declaration stand in different
places and climb past different nodes, but they meet instances of the same declarations, so they
come to the same name (`Scoped.typePath_eq`).  One thing can keep a node from its name: the climb
gives up at a node of unknown declaration (`Obscured`).  With this `declaration_settles_name` goes
both ways: an instance of a declaration that has a name somewhere has that name, or it is obscured
and has none.

A node without a lexical name is named after its path, behind a mark.  The mark keeps the two
kinds of names apart (`kinds_of_names_differ`) unless the outermost type of a climb is named like
the mark itself (`Marked`).

Taken as given, for the first result: all instances of a declaration have one type name and one
scope, and of the declaration that a type stands in there is an instance above (`Scoped`).  For
the second: nothing but that exclusion.  Each has a design that shows what is excluded to be
possible.
-/
import Mathlib.Data.List.Infix
import RegLayer.Naming
import RegLayer.Proofs.Model.Region

namespace RegLayer

/-! ## What is above a node -/

namespace Model

variable {m : Model} {a b h p u : Nat}

theorem lt_size_of_decl {d : DeclId} (hd : (m.node h).decl = some d) : h < m.size := by
  refine Nat.lt_of_not_le fun hle => ?_
  unfold node at hd
  rw [Array.getElem?_eq_none hle] at hd
  cases hd

end Model

/-! ## The climb of a node -/

/-- The declaration that the type of a node stands in. -/
def Node.outer? (n : Node) : Option DeclId :=
  match n.scope with
  | some (.inside d) => some d
  | _ => none

theorem Node.outer?_eq_some {n : Node} {d : DeclId} :
    n.outer? = some d ↔ n.scope = some (.inside d) := by
  unfold outer?
  split <;> simp_all

theorem declaredPath_cons_self {d : DeclId} {n : Node} {above : List Node}
    (hd : n.decl = some d) : declaredPath d (n :: above) = scopePath n above := by
  rw [declaredPath, hd]
  exact if_pos rfl

theorem declaredPath_cons_other {d e : DeclId} {n : Node} {above : List Node}
    (he : n.decl = some e) (hne : e ≠ d) :
    declaredPath d (n :: above) = declaredPath d above := by
  rw [declaredPath, he]
  exact if_neg hne

theorem declaredPath_cons_unknown {d : DeclId} {n : Node} {above : List Node}
    (hd : n.decl = none) : declaredPath d (n :: above) = none := by
  rw [declaredPath, hd]

namespace Model

variable (m : Model)

/-- The nearest instance of a declaration around a node. -/
def enclosing? (h : Nat) (d : DeclId) : Option Nat :=
  (m.ancestors h).find? fun a => (m.node a).decl == some d

/-- The type names from the outermost scope to the type of a node, where they can be found. -/
def typePath (h : Nat) : Option (List String) :=
  scopePath (m.node h) ((m.ancestors h).map m.node)

/-- The climb from scope to scope ends at a node whose type is declared outside all others. -/
inductive Outermost : Nat → Nat → Prop
  | root {h : Nat} : (m.node h).scope = some .root → Outermost h h
  | inside {h a o : Nat} {d : DeclId} : (m.node h).scope = some (.inside d) →
      m.enclosing? h d = some a → Outermost a o → Outermost h o

/-- A node of unknown declaration stands between the node and the end of its climb. -/
def Obscured (h : Nat) : Prop :=
  ∃ o u, m.Outermost h o ∧ u ∈ m.ancestors h ∧ o ∈ m.ancestors u ∧ (m.node u).decl = none

/-- Declarations settle the name and the scope of a type, and a type that is declared inside
another one is used inside an instance of that one only. -/
structure Scoped : Prop where
  typeName : ∀ a, a < m.size → ∀ b, b < m.size → (m.node a).decl.isSome = true →
    (m.node a).decl = (m.node b).decl → (m.node a).typeName = (m.node b).typeName
  scope : ∀ a, a < m.size → ∀ b, b < m.size → (m.node a).decl.isSome = true →
    (m.node a).decl = (m.node b).decl → (m.node a).scope = (m.node b).scope
  enclosed : ∀ h, h < m.size → ∀ d ∈ (m.node h).outer?,
    ∃ a ∈ m.ancestors h, (m.node a).decl = some d

variable {m} {h a b o : Nat} {d : DeclId}

theorem enclosing?_eq_some (ha : m.enclosing? h d = some a) :
    a ∈ m.ancestors h ∧ (m.node a).decl = some d :=
  ⟨List.mem_of_find?_eq_some ha, by simpa using List.find?_some ha⟩

theorem enclosing?_of_parent {p : Nat} (hp : m.parent h = some p) :
    m.enclosing? h d = if (m.node p).decl = some d then some p else m.enclosing? p d := by
  unfold enclosing?
  rw [ancestors_of_parent hp, lineage, List.find?_cons]
  by_cases hd : (m.node p).decl = some d
  · rw [if_pos hd, beq_iff_eq.2 hd]
  · rw [if_neg hd, beq_false_of_ne hd]

/-- **One scope up**: the climb comes to the nearest instance of the declaration, and everything
that it passes is of known declaration. -/
theorem declaredPath_ancestors {names : List String} :
    declaredPath d ((m.ancestors h).map m.node) = some names ↔
      ∃ a, m.enclosing? h d = some a ∧ m.typePath a = some names ∧
        ∀ u ∈ m.ancestors h, a ∈ m.ancestors u → (m.node u).decl ≠ none := by
  induction h using m.induct_parent with
  | root h hp =>
    unfold enclosing?
    rw [ancestors_of_root hp]
    simp [declaredPath]
  | child h p hp ih =>
    rw [enclosing?_of_parent hp, ancestors_of_parent hp, lineage, List.map_cons]
    cases hd : (m.node p).decl with
    | none =>
      -- The climb gives up here, below whatever instance there may be.
      rw [declaredPath_cons_unknown hd, if_neg (by simp)]
      constructor
      · intro h'
        cases h'
      · rintro ⟨a, ha, _, hknown⟩
        exact absurd hd (hknown p List.mem_cons_self (enclosing?_eq_some ha).1)
    | some e =>
      by_cases hed : e = d
      · subst hed
        rw [declaredPath_cons_self hd, if_pos rfl]
        constructor
        · intro h'
          refine ⟨p, rfl, h', fun u hu hpu => ?_⟩
          have h₁ : u ≤ p := le_of_mem_lineage hu
          have h₂ : p < u := lt_of_mem_ancestors hpu
          omega
        · rintro ⟨a, ha, hpath, _⟩
          obtain rfl := Option.some.inj ha
          exact hpath
      · rw [declaredPath_cons_other hd hed, if_neg (by simpa using hed), ih]
        refine exists_congr fun a => and_congr_right fun ha => and_congr_right fun _ => ?_
        constructor
        · intro hknown u hu hau
          rcases List.mem_cons.1 hu with rfl | hu
          · rw [hd]
            exact Option.some_ne_none e
          · exact hknown u hu hau
        · intro hknown u hu hau
          exact hknown u (List.mem_cons_of_mem p hu) hau

/-! ## Type names along the climb -/

theorem typePath_of_root (hs : (m.node h).scope = some .root) :
    m.typePath h = (m.node h).typeName.map ([·]) := by
  unfold typePath scopePath
  rw [hs]

theorem typePath_of_inside (hs : (m.node h).scope = some (.inside d)) :
    m.typePath h = (declaredPath d ((m.ancestors h).map m.node)).bind fun names =>
      (m.node h).typeName.map fun t => names ++ [t] := by
  unfold typePath scopePath
  rw [hs]

theorem typePath_of_unscoped (hs : (m.node h).scope = none) : m.typePath h = none := by
  unfold typePath scopePath
  rw [hs]

theorem typePath_inside_eq_some {names : List String}
    (hs : (m.node h).scope = some (.inside d)) :
    m.typePath h = some names ↔
      ∃ a front t, m.enclosing? h d = some a ∧ m.typePath a = some front ∧
        (∀ u ∈ m.ancestors h, a ∈ m.ancestors u → (m.node u).decl ≠ none) ∧
        (m.node h).typeName = some t ∧ names = front ++ [t] := by
  rw [typePath_of_inside hs, Option.bind_eq_some_iff]
  constructor
  · rintro ⟨front, hfront, hname⟩
    obtain ⟨a, ha, hpath, hknown⟩ := declaredPath_ancestors.1 hfront
    obtain ⟨t, ht, rfl⟩ := Option.map_eq_some_iff.1 hname
    exact ⟨a, front, t, ha, hpath, hknown, ht, rfl⟩
  · rintro ⟨a, front, t, ha, hpath, hknown, ht, rfl⟩
    exact ⟨front, declaredPath_ancestors.2 ⟨a, ha, hpath, hknown⟩, by rw [ht]; rfl⟩

theorem exists_outermost {names : List String} (hn : m.typePath h = some names) :
    ∃ o t rest, m.Outermost h o ∧ (m.node o).typeName = some t ∧ names = t :: rest := by
  induction h using Nat.strongRecOn generalizing names with
  | ind h ih =>
    cases hs : (m.node h).scope with
    | none =>
      rw [typePath_of_unscoped hs] at hn
      cases hn
    | some s =>
      cases s with
      | root =>
        rw [typePath_of_root hs] at hn
        obtain ⟨t, ht, rfl⟩ := Option.map_eq_some_iff.1 hn
        exact ⟨h, t, [], .root hs, ht, rfl⟩
      | inside d =>
        obtain ⟨a, front, t, ha, hfront, _, _, rfl⟩ := (typePath_inside_eq_some hs).1 hn
        have hlt : a < h := lt_of_mem_ancestors (enclosing?_eq_some ha).1
        obtain ⟨o, t', rest, ho, ht', rfl⟩ := ih a hlt hfront
        exact ⟨o, t', rest ++ [t], .inside hs ha ho, ht', rfl⟩

theorem Outermost.mem_lineage (ho : m.Outermost h o) : o ∈ m.lineage h := by
  induction ho with
  | root _ => exact mem_lineage_self _
  | inside _ ha _ ih =>
    exact mem_lineage_trans (List.mem_cons_of_mem _ (enclosing?_eq_some ha).1) ih

theorem not_obscured_of_typePath {names : List String} (hn : m.typePath h = some names) :
    ¬m.Obscured h := by
  rintro ⟨o, u, ho, hu, hou, hunknown⟩
  induction ho generalizing names with
  | root _ =>
    have h₁ := lt_of_mem_ancestors hu
    have h₂ := lt_of_mem_ancestors hou
    omega
  | inside hs ha ho ih =>
    obtain ⟨a', front, t, ha', hfront, hknown, _, _⟩ := (typePath_inside_eq_some hs).1 hn
    obtain rfl := Option.some.inj (ha.symm.trans ha')
    obtain ⟨hah, had⟩ := enclosing?_eq_some ha
    -- The unknown node is below the nearest instance, or is it, or is above it.
    rcases ancestors_trichotomy hu hah with hau | rfl | hua
    · exact hknown u hu hau hunknown
    · rw [hunknown] at had
      cases had
    · exact ih hfront hua hou

/-- **Instances of one declaration come to one chain of type names**, unless something of unknown
declaration is in the way. -/
theorem Scoped.typePath_eq {names : List String} (hm : m.Scoped) (ha : (m.node a).decl = some d)
    (hb : (m.node b).decl = some d) (hn : m.typePath a = some names) :
    (∃ o, m.Outermost b o) ∧ (¬m.Obscured b → m.typePath b = some names) := by
  -- The nearest instance around `a` is older than `a`, which is what the induction goes by.
  induction a using Nat.strongRecOn generalizing b d names with
  | ind a ih =>
    have has : a < m.size := lt_size_of_decl ha
    have hbs : b < m.size := lt_size_of_decl hb
    have hknown : (m.node a).decl.isSome = true := by rw [ha]; rfl
    have hscope := hm.scope a has b hbs hknown (ha.trans hb.symm)
    have hname := hm.typeName a has b hbs hknown (ha.trans hb.symm)
    cases hs : (m.node a).scope with
    | none =>
      rw [typePath_of_unscoped hs] at hn
      cases hn
    | some s =>
      have hsb : (m.node b).scope = some s := hscope ▸ hs
      cases s with
      | root =>
        refine ⟨⟨b, .root hsb⟩, fun _ => ?_⟩
        rw [typePath_of_root hsb, ← hname, ← typePath_of_root hs, hn]
      | inside e =>
        obtain ⟨a', front, t, ha', hfront, _, ht, rfl⟩ := (typePath_inside_eq_some hs).1 hn
        obtain ⟨haa, had⟩ := enclosing?_eq_some ha'
        have hfound : (m.enclosing? b e).isSome = true := by
          obtain ⟨c, hc, hce⟩ := hm.enclosed b hbs e (Node.outer?_eq_some.2 hsb)
          exact List.find?_isSome.2 ⟨c, hc, by simpa using hce⟩
        obtain ⟨b', hb'⟩ := Option.isSome_iff_exists.1 hfound
        obtain ⟨hbb, hbd⟩ := enclosing?_eq_some hb'
        obtain ⟨⟨o, ho⟩, hpath⟩ := ih a' (lt_of_mem_ancestors haa) had hbd hfront
        refine ⟨⟨o, .inside hsb hb' ho⟩, fun hclear => ?_⟩
        -- What obscures the nearest instance obscures `b`, and so does what stands below it.
        have hclear' : ¬m.Obscured b' := by
          rintro ⟨o', u, ho', hu, hou, hunknown⟩
          have hub : u ∈ m.ancestors b :=
            mem_ancestors_of_mem_lineage (List.mem_cons_of_mem _ hu) hbb
          exact hclear ⟨o', u, .inside hsb hb' ho', hub, hou, hunknown⟩
        refine (typePath_inside_eq_some hsb).2
          ⟨b', front, t, hb', hpath hclear', fun u hu hbu hunknown => ?_, hname ▸ ht, rfl⟩
        exact hclear ⟨o, u, .inside hsb hb' ho, hu,
          mem_ancestors_of_mem_lineage ho.mem_lineage hbu, hunknown⟩

end Model

namespace Naming

variable {names : Naming} {a b h : Nat}

theorem scopePath?_eq (sep : String) :
    names.scopePath? h sep = (names.model.typePath h).map (Text.join sep) :=
  rfl

theorem className_of_typePath {chain : List String} (hstyle : names.style = .lexical)
    (hn : names.model.typePath h = some chain) :
    names.className h = Text.join separator chain := by
  unfold className
  rw [hstyle, scopePath?_eq, hn]
  rfl

theorem className_of_typePath_eq_none (hstyle : names.style = .lexical)
    (hn : names.model.typePath h = none) :
    names.className h = fallbackMark ++ names.instancePath h separator := by
  unfold className
  rw [hstyle, scopePath?_eq, hn]
  rfl

/-- **A declaration settles the lexical name of its instances.**  If one instance of a declaration
has a lexical name, then every instance has the same name that is not obscured, and the same class
name with it; an instance that is obscured has none. -/
theorem declaration_settles_name (hm : names.model.Scoped) {d : DeclId}
    (ha : (names.model.node a).decl = some d) (hb : (names.model.node b).decl = some d)
    {sep s : String} (hs : names.scopePath? a sep = some s) :
    (¬names.model.Obscured b → names.scopePath? b sep = some s ∧
        (names.style = .lexical → names.className b = names.className a)) ∧
      (names.model.Obscured b → names.scopePath? b sep = none) := by
  obtain ⟨chain, hchain, rfl⟩ := Option.map_eq_some_iff.1 hs
  constructor
  · intro hclear
    have hsame := (hm.typePath_eq ha hb hchain).2 hclear
    refine ⟨by rw [scopePath?_eq, hsame]; rfl, fun hstyle => ?_⟩
    rw [className_of_typePath hstyle hsame, className_of_typePath hstyle hchain]
  · intro hobscured
    cases hn : names.model.typePath b with
    | none => rw [scopePath?_eq, hn]; rfl
    | some chain' => exact absurd hobscured (Model.not_obscured_of_typePath hn)

end Naming

/-! ### One type in three places -/

/-- A map that declares a register type and uses it three times: as it is, in a register file of a
type of its own, and in a register file of which no declaration is known. -/
def scattered : Model :=
  let ctrl (name : String) : Tree Node :=
    .node { name := name, kind := .reg 32 32, typeName := some "ctrl_t", decl := some ⟨1⟩
            scope := some (.inside ⟨0⟩) } []
  Model.ofForest ⟨#["soc_t", "soc_t::ctrl_t", "soc_t::bank_t"]⟩
    [.node { name := "soc", kind := .addrmap .little false, typeName := some "soc_t"
             decl := some ⟨0⟩, scope := some .root }
      [ctrl "near",
        .node { name := "bank", kind := .regfile, offset := 0x10, typeName := some "bank_t"
                decl := some ⟨2⟩, scope := some (.inside ⟨0⟩) } [ctrl "ctrl"],
        .node { name := "group", kind := .regfile, offset := 0x20 } [ctrl "far"]]]

/-- The lexical names of a map. -/
def lexicalNames (m : Model) : Naming :=
  { model := m, top := 0, style := .lexical }

theorem scoped_scattered : scattered.Scoped where
  typeName := by decide +kernel
  scope := by decide +kernel
  enclosed := by decide +kernel

theorem obscured_far : scattered.Obscured 5 := by
  have hscope : (scattered.node 5).scope = some (.inside ⟨0⟩) := by decide +kernel
  have hsoc : scattered.enclosing? 5 ⟨0⟩ = some 0 := by decide +kernel
  have htop : (scattered.node 0).scope = some .root := by decide +kernel
  exact ⟨0, 4, .inside hscope hsoc (.root htop), by decide +kernel, by decide +kernel,
    by decide +kernel⟩

theorem not_obscured_bank : ¬scattered.Obscured 3 := by
  rintro ⟨o, u, _, hu, _, hunknown⟩
  have hknown : ∀ u ∈ scattered.ancestors 3, (scattered.node u).decl ≠ none := by decide +kernel
  exact hknown u hu hunknown

/-- The register in the bank has the name of the one outside it, the third register has none. -/
theorem Naming.declaration_settles_name_scattered :
    (lexicalNames scattered).scopePath? 1 "::" = some "soc_t::ctrl_t" ∧
      (lexicalNames scattered).scopePath? 3 "::" = some "soc_t::ctrl_t" ∧
      (lexicalNames scattered).className 3 = (lexicalNames scattered).className 1 ∧
      (lexicalNames scattered).scopePath? 5 "::" = none := by
  have hnear : (lexicalNames scattered).scopePath? 1 "::" = some "soc_t::ctrl_t" := by
    decide +kernel
  have hscoped : (lexicalNames scattered).model.Scoped := scoped_scattered
  have hdecl : ∀ h ∈ [1, 3, 5], ((lexicalNames scattered).model.node h).decl = some ⟨1⟩ := by
    decide +kernel
  have hbank := declaration_settles_name hscoped (hdecl 1 (by decide)) (hdecl 3 (by decide)) hnear
  have hfar := declaration_settles_name hscoped (hdecl 1 (by decide)) (hdecl 5 (by decide)) hnear
  obtain ⟨hname, hclass⟩ := hbank.1 not_obscured_bank
  exact ⟨hnear, hname, hclass rfl, hfar.2 obscured_far⟩

/-- **Not every instance has the name of its declaration**, even where declarations settle names
and scopes and every type is used inside the type that it is declared in. -/
theorem Naming.place_can_hide_name :
    ¬∀ (names : Naming) (a b : Nat) (d : DeclId) (sep s : String),
      names.model.Built → names.model.Scoped → (names.model.node a).decl = some d →
      (names.model.node b).decl = some d → names.scopePath? a sep = some s →
      names.scopePath? b sep = some s := by
  intro hall
  have hfar : (lexicalNames scattered).scopePath? 5 "__" = some "soc_t__ctrl_t" :=
    hall (lexicalNames scattered) 1 5 ⟨1⟩ "__" "soc_t__ctrl_t" (Model.built_ofForest _ _)
      scoped_scattered (by decide +kernel) (by decide +kernel) (by decide +kernel)
  have hnone : (lexicalNames scattered).scopePath? 5 "__" = none := by decide +kernel
  rw [hnone] at hfar
  cases hfar

/-! ## The mark -/

namespace Naming

/-- A type name that begins with the mark when a separator is put behind it. -/
def Marked (typeName : String) : Prop :=
  fallbackMark.toList <+: (typeName ++ separator).toList

instance (typeName : String) : Decidable (Marked typeName) :=
  inferInstanceAs (Decidable (_ <+: _))

/-- The marked names are those that begin with the mark, and two that a separator completes. -/
example : (["xtern__soc", "xtern", "xtern_", "extern__soc", "xtern_soc", "soc_xtern__"].map fun t =>
    decide (Marked t)) = [true, true, true, false, false, false] := by
  decide +kernel

theorem marked_of_prefix_join {t : String} {rest : List String}
    (h : fallbackMark.toList <+: (Text.join separator (t :: rest)).toList) : Marked t := by
  unfold Marked
  cases rest with
  | nil =>
    rw [Text.join_singleton] at h
    rw [String.toList_append]
    exact h.trans (List.prefix_append _ _)
  | cons t' rest =>
    rw [Text.join_cons_cons, String.toList_append] at h
    have hfront := List.prefix_append (t ++ separator).toList
      (Text.join separator (t' :: rest)).toList
    rcases List.prefix_or_prefix_of_prefix h hfront with hp | hp
    · exact hp
    · -- Only as a whole does the mark end in a separator.
      have hends : ∀ front ∈ fallbackMark.toList.inits, separator.toList <:+ front →
          fallbackMark.toList <+: front := by decide +kernel
      refine hends _ ((List.mem_inits _ _).2 hp) ?_
      rw [String.toList_append]
      exact List.suffix_append _ _

variable {names : Naming} {a b : Nat}

/-- **Names of the two kinds differ** where the climb does not end at a type with a marked name. -/
theorem kinds_of_names_differ (hstyle : names.style = .lexical)
    (ha : (names.scopePath? a separator).isSome = true) (hb : names.scopePath? b separator = none)
    (hmark : ∀ o, names.model.Outermost a o → ∀ t ∈ (names.model.node o).typeName, ¬Marked t) :
    names.className a ≠ names.className b := by
  rw [scopePath?_eq, Option.isSome_map] at ha
  rw [scopePath?_eq, Option.map_eq_none_iff] at hb
  obtain ⟨chain, hchain⟩ := Option.isSome_iff_exists.1 ha
  obtain ⟨o, t, rest, ho, ht, rfl⟩ := Model.exists_outermost hchain
  rw [className_of_typePath hstyle hchain, className_of_typePath_eq_none hstyle hb]
  intro hmeet
  have hprefix : fallbackMark.toList <+: (Text.join separator (t :: rest)).toList := by
    rw [hmeet, String.toList_append]
    exact List.prefix_append _ _
  exact hmark o ho t ht (marked_of_prefix_join hprefix)

end Naming

/-- The name of the register that is used as it is, and the name of the one that is obscured. -/
theorem Naming.kinds_of_names_differ_scattered :
    (lexicalNames scattered).className 1 = "soc_t__ctrl_t" ∧
      (lexicalNames scattered).className 5 = "xtern__soc__group__far" ∧
      (lexicalNames scattered).className 1 ≠ (lexicalNames scattered).className 5 := by
  have hmark : ∀ o ∈ scattered.lineage 1, ∀ t ∈ (scattered.node o).typeName, ¬Marked t := by
    decide +kernel
  exact ⟨by decide +kernel, by decide +kernel, kinds_of_names_differ rfl (by decide +kernel)
    (by decide +kernel) fun o ho => hmark o ho.mem_lineage⟩

/-- A map of unknown type with a register whose type has the name that the mark makes for the
map. -/
def impostor : Model :=
  Model.ofForest ⟨#["xtern__soc"]⟩
    [.node { name := "soc", kind := .addrmap .unspecified false }
      [.node { name := "ctrl", kind := .reg 32 32, typeName := some "xtern__soc"
               decl := some ⟨0⟩, scope := some .root } []]]

/-- **The mark does not keep all names apart**: a type can be named so that its class has the name
of a node that is named after its path. -/
theorem Naming.kinds_of_names_can_meet :
    ¬∀ (names : Naming) (a b : Nat), names.model.Built → names.style = .lexical →
      a ∈ names.model.region names.top → b ∈ names.model.region names.top →
      (names.scopePath? a separator).isSome = true → names.scopePath? b separator = none →
      names.className a ≠ names.className b := by
  intro hall
  refine hall (lexicalNames impostor) 1 0 (Model.built_ofForest _ _) rfl (by decide +kernel)
    (by decide +kernel) (by decide +kernel) (by decide +kernel) ?_
  decide +kernel

end RegLayer
