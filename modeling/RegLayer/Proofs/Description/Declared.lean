/-
# `RegLayer.Proofs.Description.Declared` — keys and declarations

A description does not list its declarations.  They are met by their keys: a component gives the
key of its own type, and the key of the type around that as a scope, maybe long before the
component of that type comes.  `KeyOf` and `ScopeOf` say which keys a tag gives, without a word
about how they are met.

Reading an element adds declarations, and leaves each key of the element with the first
declaration of that label (`declared_component`, by induction on the element).  What comes later
keeps the labels, and so in the finished model keys and declarations tell each other, in both
directions and wherever in the document they stand (`declarations_are_keys`).

Taken as given: the element was read as a design.  The element is arbitrary; in particular it need
not be one that a text can give.
-/
import RegLayer.Proofs.Declarations
import RegLayer.Proofs.Description.Mirror

namespace RegLayer

open Xml

/-! ## The labels of a model -/

namespace Model

mutual

theorem labels_graft (m : Model) (under : Option Nat) :
    ∀ t : Tree Node, (m.graft under t).labels = m.labels
  | .node n ts => by rw [graft, labels_graftAll, labels_add]

theorem labels_graftAll (m : Model) (under : Option Nat) :
    ∀ ts : List (Tree Node), (m.graftAll under ts).labels = m.labels
  | [] => by rw [graftAll]
  | t :: ts => by rw [graftAll, labels_graftAll, labels_graft]

end

theorem label?_ofForest (d : Declarations) (ts : List (Tree Node)) (i : DeclId) :
    (ofForest d ts).label? i = d.label? i := by
  show (ofForest d ts).labels[i.index]? = d.labels[i.index]?
  rw [ofForest, labels_graftAll]

end Model

namespace Description

open Declarations

variable {tag : Tag}

/-! ## Rules for keys -/

/-- The key that a tag gives for the declaration of its component's type, if any: the one that it
defines, or else one that is made from the type and its scope. -/
inductive KeyOf (tag : Tag) : Option String → Prop
  | defined {key : String} : tag.attribute? "def" = some key → KeyOf tag (some key)
  | outermost {type : String} : tag.attribute? "def" = none → tag.attribute? "type" = some type →
      tag.attribute? "scope" = some "root" → KeyOf tag (some type)
  | inside {type scope : String} : tag.attribute? "def" = none →
      tag.attribute? "type" = some type → tag.attribute? "scope" = some scope → scope ≠ "root" →
      KeyOf tag (some (scope ++ "::" ++ type))
  | unscoped {type : String} : tag.attribute? "def" = none → tag.attribute? "type" = some type →
      tag.attribute? "scope" = none → KeyOf tag (some ("?" ++ "::" ++ type))
  | missing : tag.attribute? "def" = none → tag.attribute? "type" = none → KeyOf tag none

/-- What a tag says about the scope of its component's type, where `Named` tells which declaration
a key stands for. -/
inductive ScopeOf (Named : String → DeclId → Prop) (tag : Tag) : Option Scope → Prop
  | missing : tag.attribute? "scope" = none → ScopeOf Named tag none
  | root : tag.attribute? "scope" = some "root" → ScopeOf Named tag (some .root)
  | inside {key : String} {i : DeclId} : tag.attribute? "scope" = some key → key ≠ "root" →
      Named key i → ScopeOf Named tag (some (.inside i))

theorem ScopeOf.imp {Named Named' : String → DeclId → Prop} {scope : Option Scope}
    (h : ScopeOf Named tag scope) (himp : ∀ key i, Named key i → Named' key i) :
    ScopeOf Named' tag scope := by
  cases h with
  | missing hnone => exact .missing hnone
  | root hroot => exact .root hroot
  | inside hkey hne hnamed => exact .inside hkey hne (himp _ _ hnamed)

theorem ScopeOf.exists_inside {Named : String → DeclId → Prop} {scope : Option Scope}
    {key : String} : ScopeOf Named tag scope → tag.attribute? "scope" = some key → key ≠ "root" →
      ∃ i, scope = some (.inside i) ∧ Named key i := by
  intro h hkey hne
  cases h with
  | missing hnone => simp [hnone] at hkey
  | root hroot => exact absurd (Option.some.inj (hkey.symm.trans hroot)) hne
  | inside hkey' _ hnamed =>
    obtain rfl := Option.some.inj (hkey.symm.trans hkey')
    exact ⟨_, rfl, hnamed⟩

theorem keyOf_declKey? (tag : Tag) : KeyOf tag (declKey? tag) := by
  unfold declKey?
  split
  · next hdef => exact .defined hdef
  · next hdef =>
    cases htype : tag.attribute? "type" with
    | none => exact .missing hdef htype
    | some type =>
      simp only [Option.map_some]
      split
      · next hscope => exact .unscoped hdef htype hscope
      · next scope hscope =>
        split
        · next hroot => exact .outermost hdef htype (hscope.trans (congrArg some hroot))
        · next hne => exact .inside hdef htype hscope hne

theorem keyOf_iff {key : Option String} : KeyOf tag key ↔ declKey? tag = key := by
  constructor
  · intro h
    cases h with
    | defined hdef => simp [declKey?, hdef]
    | outermost hdef htype hscope => simp [declKey?, hdef, htype, hscope, rootKey]
    | inside hdef htype hscope hne => simp [declKey?, hdef, htype, hscope, rootKey, hne]
    | unscoped hdef htype hscope => simp [declKey?, hdef, htype, hscope, unknownScope]
    | missing hdef htype => simp [declKey?, hdef, htype]
  · rintro rfl
    exact keyOf_declKey? tag

/-! ## Reading keys -/

variable {known later : Declarations}

/-- The keys that a tag gives are the labels of its component's declarations, which were declared
when these labels were met first. -/
structure Declares (known : Declarations) (tag : Tag) (n : Node) : Prop where
  decl : Option.Rel known.First (declKey? tag) n.decl
  scope : ScopeOf known.First tag n.scope

theorem Declares.mono {n : Node} (hgrows : Grows known later) :
    Declares known tag n → Declares later tag n := by
  intro h
  refine ⟨?_, h.scope.imp fun _ _ hfirst => hgrows.first hfirst⟩
  have hdecl := h.decl
  generalize declKey? tag = key at hdecl ⊢
  generalize n.decl = decl at hdecl ⊢
  cases hdecl with
  | none => exact .none
  | some hfirst => exact .some (hgrows.first hfirst)

theorem first_of_intern {key : String} {i : DeclId} :
    Loads (intern key) known i later → Grows known later ∧ later.First key i := by
  intro h
  obtain ⟨rfl, rfl⟩ : (known.intern key).1 = i ∧ (known.intern key).2 = later :=
    Prod.mk.inj (Except.ok.inj h)
  exact ⟨grows_intern known key, first_intern known key⟩

theorem scopeOf_of_scope? {scope : Option Scope} :
    Loads (scope? tag) known scope later → Grows known later ∧ ScopeOf later.First tag scope := by
  intro h
  unfold scope? at h
  split at h
  · next hnone =>
    obtain ⟨rfl, rfl⟩ := loads_pure.1 h
    exact ⟨.refl _, .missing hnone⟩
  · next key hkey =>
    split at h
    · next hroot =>
      obtain ⟨rfl, rfl⟩ := loads_pure.1 h
      exact ⟨.refl _, .root (hkey.trans (congrArg some hroot))⟩
    · next hne =>
      obtain ⟨i, mid, hi, h⟩ := loads_bind.1 h
      obtain ⟨rfl, rfl⟩ := loads_pure.1 h
      obtain ⟨hgrows, hfirst⟩ := first_of_intern hi
      exact ⟨hgrows, .inside hkey hne hfirst⟩

theorem first_of_decl? {decl : Option DeclId} :
    Loads (decl? tag) known decl later →
      Grows known later ∧ Option.Rel later.First (declKey? tag) decl := by
  intro h
  unfold decl? at h
  split at h
  · next hnone =>
    obtain ⟨rfl, rfl⟩ := loads_pure.1 h
    exact ⟨.refl _, hnone ▸ .none⟩
  · next key hkey =>
    rw [map_eq_pure_bind] at h
    obtain ⟨i, mid, hi, h⟩ := loads_bind.1 h
    obtain ⟨rfl, rfl⟩ := loads_pure.1 h
    obtain ⟨hgrows, hfirst⟩ := first_of_intern hi
    exact ⟨hgrows, hkey ▸ .some hfirst⟩

theorem declares_of_node {place : Option Place} {n : Node} :
    Loads (node place tag) known n later → Grows known later ∧ Declares later tag n := by
  intro h
  simp only [node, loads_bind, loads_lift, loads_pure] at h
  obtain ⟨_, _, ⟨_, rfl⟩, _, _, ⟨_, rfl⟩, _, _, ⟨_, rfl⟩, scope, mid, hscope, decl, _, hdecl,
    _, _, ⟨_, rfl⟩, _, _, ⟨_, rfl⟩, rfl, rfl⟩ := h
  obtain ⟨hgrows, hscope⟩ := scopeOf_of_scope? hscope
  obtain ⟨hgrows', hdecl⟩ := first_of_decl? hdecl
  exact ⟨hgrows.trans hgrows', hdecl, hscope.imp fun _ _ hfirst => hgrows'.first hfirst⟩

mutual

/-- **The keys in an element that was read are declared**, and nothing that was declared before is
lost. -/
theorem declared_component (place : Option Place) :
    ∀ (e : Element) {known later : Declarations} {t : Tree Node},
      Loads (component place e) known t later →
        Grows known later ∧ e.Agree (Declares later) t
  | .node tag inside, known, later, t, h => by
    simp only [component, loads_bind, loads_pure] at h
    obtain ⟨n, mid, hn, ts, _, hts, rfl, rfl⟩ := h
    obtain ⟨hgrows, hdeclares⟩ := declares_of_node hn
    obtain ⟨hgrows', hinside⟩ := declared_components (some (placeInside place n)) inside hts
    exact ⟨hgrows.trans hgrows', .node (hdeclares.mono hgrows') hinside⟩

theorem declared_components (place : Option Place) :
    ∀ (es : List Element) {known later : Declarations} {ts : List (Tree Node)},
      Loads (components place es) known ts later →
        Grows known later ∧ List.Forall₂ (Tree.Agree (Declares later)) es ts
  | [], known, later, ts, h => by
    simp only [components, loads_pure] at h
    obtain ⟨rfl, rfl⟩ := h
    exact ⟨.refl _, .nil⟩
  | e :: es, known, later, ts, h => by
    simp only [components, loads_bind, loads_pure] at h
    obtain ⟨t, mid, ht, us, _, hus, rfl, rfl⟩ := h
    obtain ⟨hgrows, hagree⟩ := declared_component place e ht
    obtain ⟨hgrows', hagrees⟩ := declared_components place es hus
    exact ⟨hgrows.trans hgrows', .cons (hagree.imp fun _ _ => Declares.mono hgrows') hagrees⟩

end

/-! ## Keys in the finished model -/

/-- In the model of these tags, in the order of a document, declarations stand for keys. -/
structure Keyed (m : Model) (tags : List Tag) : Prop where
  /-- The label of a node's declaration is its key; without a key there is none. -/
  label : ∀ (h : Nat) (tag : Tag) (key : Option String), tags[h]? = some tag → KeyOf tag key →
    Option.Rel (fun k i => m.label? i = some k) key (m.node h).decl
  /-- Nodes have one declaration exactly if their keys are equal. -/
  same : ∀ (g h : Nat) (tag tag' : Tag) (key key' : Option String), tags[g]? = some tag →
    tags[h]? = some tag' → KeyOf tag key → KeyOf tag' key' →
    ((m.node g).decl = (m.node h).decl ↔ key = key')
  /-- The declaration of a scope has the scope's key as its label, and is the declaration of the
  nodes that have this key as their own, and of no others. -/
  scope : ∀ (h : Nat) (tag : Tag), tags[h]? = some tag →
    ScopeOf (fun key i => m.label? i = some key ∧
      ∀ (g : Nat) (tag' : Tag), tags[g]? = some tag' →
        ((m.node g).decl = some i ↔ KeyOf tag' (some key))) tag (m.node h).scope

theorem eq_iff_of_first {key key' : Option String} {decl decl' : Option DeclId}
    (h : Option.Rel known.First key decl) (h' : Option.Rel known.First key' decl') :
    decl = decl' ↔ key = key' := by
  cases h with
  | none =>
    cases h' with
    | none => simp
    | some => simp
  | @some k i hi =>
    cases h' with
    | none => simp
    | @some k' j hj =>
      simp only [Option.some.injEq]
      constructor
      · rintro rfl
        exact Option.some.inj (hi.1.symm.trans hj.1)
      · rintro rfl
        exact hi.unique hj

theorem keyed_of_declares {m : Model} {tags : List Tag} (hlabel : ∀ i, m.label? i = known.label? i)
    (hdeclares : ∀ (h : Nat) (tag : Tag), tags[h]? = some tag → Declares known tag (m.node h)) :
    Keyed m tags := by
  refine ⟨?_, ?_, ?_⟩
  · intro h tag key htag hkey
    have hdecl := (hdeclares h tag htag).decl
    rw [keyOf_iff.1 hkey] at hdecl
    generalize (m.node h).decl = decl at hdecl ⊢
    cases hdecl with
    | none => exact .none
    | some hfirst => exact .some ((hlabel _).trans hfirst.1)
  · intro g h tag tag' key key' htag htag' hkey hkey'
    have hg := (hdeclares g tag htag).decl
    have hh := (hdeclares h tag' htag').decl
    rw [keyOf_iff.1 hkey] at hg
    rw [keyOf_iff.1 hkey'] at hh
    exact eq_iff_of_first hg hh
  · intro h tag htag
    refine (hdeclares h tag htag).scope.imp fun key i hfirst => ?_
    refine ⟨(hlabel i).trans hfirst.1, fun g tag' htag' => ?_⟩
    rw [keyOf_iff]
    exact eq_iff_of_first (hdeclares g tag' htag').decl (.some hfirst)

/-- **Declarations are met once for each key.**  In the model of a document each node is decoded
from the element at its place in the document.  Each element gives one key or none; nodes have one
declaration exactly if their keys are equal, and its label is the key; and the scope of a node is
the declaration of all nodes with the scope's key, earlier or later in the document. -/
theorem declarations_are_keys {root : Element} {m : Model} (hread : ofElement root = .ok m) :
    List.Forall₂ Decoded (Tree.preorderAll root.children) ((List.range m.size).map m.node) ∧
      (∀ tag, ∃! key, KeyOf tag key) ∧ Keyed m (Tree.preorderAll root.children) := by
  have hmirrors := (mirrors_of_ofElement hread).1
  obtain ⟨_, d, ts, hloads, _, rfl⟩ := exists_forest_of_ofElement hread
  have hnodes := Model.forall₂_nodes_ofForest (d := d)
    (declared_components none root.children hloads).2
  have hunique : ∀ tag, ∃! key, KeyOf tag key := by
    intro tag
    refine ⟨declKey? tag, keyOf_declKey? tag, ?_⟩
    intro key hkey
    exact (keyOf_iff.1 hkey).symm
  refine ⟨hmirrors.nodes, hunique, keyed_of_declares (Model.label?_ofForest d ts) ?_⟩
  intro h tag htag
  obtain ⟨n, hn, hdeclares⟩ := forall₂_getElem? hnodes htag
  obtain ⟨g, hg, rfl⟩ := Option.map_eq_some_iff.1 (List.getElem?_map .. ▸ hn)
  obtain ⟨_, rfl⟩ := List.getElem?_eq_some_iff.1 hg
  simpa using hdeclares

/-! ### Scopes before and behind a component -/

/-- A map with two blocks of one type: the scope of the first is a map that comes later, and that
of the second is the map around it. -/
def crossedScopes : String :=
  "<model><addrmap name=\"soc\" type=\"soc_t\" scope=\"root\">" ++
    "<regfile name=\"a\" type=\"blk_t\" scope=\"lib_t\"/>" ++
    "<regfile name=\"b\" def=\"lib_t::blk_t\" scope=\"soc_t\"/>" ++
    "<addrmap name=\"lib\" type=\"lib_t\" scope=\"root\"/></addrmap></model>"

theorem parse_crossedScopes :
    (Element.ofText? crossedScopes).map (fun root =>
      (Tree.preorderAll root.children, (ofElement root).isOk)) =
        some ([⟨"addrmap", [("scope", "root"), ("type", "soc_t"), ("name", "soc")], none⟩,
          ⟨"regfile", [("scope", "lib_t"), ("type", "blk_t"), ("name", "a")], none⟩,
          ⟨"regfile", [("scope", "soc_t"), ("def", "lib_t::blk_t"), ("name", "b")], none⟩,
          ⟨"addrmap", [("scope", "root"), ("type", "lib_t"), ("name", "lib")], none⟩], true) := by
  decide +kernel

/-- The two blocks share their declaration, and both scopes are the declarations of maps. -/
theorem declarations_are_keys_crossedScopes :
    ∃ m, read crossedScopes = .ok m ∧ (m.node 1).decl = (m.node 2).decl ∧
      (∃ i, (m.node 1).scope = some (.inside i) ∧ (m.node 3).decl = some i) ∧
      ∃ i, (m.node 2).scope = some (.inside i) ∧ (m.node 0).decl = some i := by
  obtain ⟨root, htext, hparse⟩ := Option.map_eq_some_iff.1 parse_crossedScopes
  obtain ⟨htags, hok⟩ := Prod.mk.inj hparse
  obtain ⟨m, hm⟩ := isOk_iff.1 hok
  have hread : read crossedScopes = .ok m := read_eq_ok_iff.2 ⟨root, htext, hm⟩
  obtain ⟨_, _, hkeyed⟩ := declarations_are_keys hm
  rw [htags] at hkeyed
  refine ⟨m, hread, ?_, ?_, ?_⟩
  · exact (hkeyed.same 1 2 _ _ _ _ rfl rfl (keyOf_declKey? _) (keyOf_declKey? _)).2 (by decide)
  · obtain ⟨i, hscope, _, hnodes⟩ := (hkeyed.scope 1 _ rfl).exists_inside rfl (by decide)
    exact ⟨i, hscope, (hnodes 3 _ rfl).2 (keyOf_iff.2 (by decide))⟩
  · obtain ⟨i, hscope, _, hnodes⟩ := (hkeyed.scope 2 _ rfl).exists_inside rfl (by decide)
    exact ⟨i, hscope, (hnodes 0 _ rfl).2 (keyOf_iff.2 (by decide))⟩

end Description

end RegLayer
