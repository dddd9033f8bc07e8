/-
# `RegLayer.Proofs.Classes.Members` — every component is a member of the block around it

A class that is written serves nobody unless a block makes an object of it.  The class of an
address map or register file does so for all components just below it, each once and in their
order: there is a line that declares the member, one that creates it and one that maps it
(`instantiates_of_block`).  And the class of such a block is written, for it or for one of its
declaration (`block_written_or_shared`).

So what remains is that every component stands just below one of these two.  A document that was
read keeps components out of registers, but not out of memories, signals and fields; where nothing
but signals stands in those, every component is a member (`components_instantiated`), and a
register in a memory is lost (`components_can_be_lost`).

Taken as given: the model was read from an element whose memories, signals and fields hold signals
only, and the layer has been rendered.  The condition speaks of the element and can be decided.
-/
import RegLayer.Classes.Code
import RegLayer.Proofs.Classes.Endianness
import RegLayer.Proofs.Description.Mirror
import RegLayer.Proofs.Naming.Hierarchical

namespace RegLayer

open Xml

/-! ## Conditions on all parts of a tree -/

namespace Tree

variable {α : Type}

mutual

/-- Whether this holds of the tree and of all trees in it. -/
def everywhere (p : Tree α → Bool) : Tree α → Bool
  | .node a ts => p (.node a ts) && everywhereIn p ts

def everywhereIn (p : Tree α → Bool) : List (Tree α) → Bool
  | [] => true
  | t :: ts => everywhere p t && everywhereIn p ts

end

theorem everywhereIn_iff {p : Tree α → Bool} {ts : List (Tree α)} :
    everywhereIn p ts = true ↔ ∀ t ∈ ts, t.everywhere p = true := by
  induction ts with
  | nil => simp [everywhereIn]
  | cons t ts ih => simp [everywhereIn, ih]

theorem everywhere_iff {p : Tree α → Bool} {t : Tree α} :
    t.everywhere p = true ↔ ∀ s : Tree α, s.Subtree t → p s = true := by
  induction t using induct with
  | step a ts ih =>
    rw [everywhere, Bool.and_eq_true, everywhereIn_iff]
    constructor
    · intro ⟨htop, hinside⟩ s hs
      rcases subtree_node_iff.1 hs with rfl | ⟨t, ht, hs⟩
      · exact htop
      · exact (ih t ht).1 (hinside t ht) s hs
    · intro hall
      refine ⟨hall _ .self, ?_⟩
      intro t ht
      refine (ih t ht).2 ?_
      intro s hs
      exact hall s (.child ht hs)

end Tree

/-! ## Kinds and their classes -/

theorem Kind.hasClass_of_isGroup {kind : Kind} (h : kind.isGroup = true) :
    kind.hasClass = true := by
  cases kind with
  | addrmap _ _ | regfile | reg _ _ | mem _ _ _ => rfl
  | field _ | signal => cases h

theorem Kind.field?_isSome_eq_false {kind : Kind} (h : kind.hasClass = true) :
    kind.field?.isSome = false := by
  cases kind with
  | addrmap _ _ | regfile | reg _ _ | mem _ _ _ | signal => rfl
  | field _ => cases h

/-! ## Documents -/

namespace Description

/-- The names of the elements that stand neither for a block nor for a register. -/
def leafNames : List String :=
  ["mem", "signal", "field"]

/-- Memories, signals and fields hold nothing but signals. -/
def LeavesHoldSignals (root : Element) : Prop :=
  ∀ e : Element, e.Subtree root → e.label.name ∈ leafNames →
    ∀ c ∈ e.children, c.label.name = "signal"

instance (root : Element) : Decidable (LeavesHoldSignals root) :=
  decidable_of_iff (root.everywhere fun e =>
      decide (e.label.name ∈ leafNames → ∀ c ∈ e.children, c.label.name = "signal")) (by
    simp only [Tree.everywhere_iff, decide_eq_true_eq]
    exact Iff.rfl)

variable {tag : Tag} {kind : Kind} {root : Element} {m : Model}

theorem KindOf.name_mem_leafNames (h : KindOf tag kind) (hgroup : kind.isGroup = false)
    (hreg : kind.isReg = false) : tag.name ∈ leafNames := by
  cases h with
  | addrmap _ _ _ => cases hgroup
  | regfile _ => cases hgroup
  | reg _ _ _ => cases hreg
  | mem hname _ _ _ => simp [leafNames, hname]
  | field hname _ => simp [leafNames, hname]
  | signal hname => simp [leafNames, hname]

theorem KindOf.not_hasClass (h : KindOf tag kind) (hname : tag.name = "signal") :
    kind.hasClass = false := by
  cases h with
  | signal _ => rfl
  | field _ _ => rfl
  | addrmap hother _ _ => simp [hname] at hother
  | regfile hother => simp [hname] at hother
  | reg hother _ _ => simp [hname] at hother
  | mem hother _ _ _ => simp [hname] at hother

theorem isGroup_of_parent (hread : ofElement root = .ok m) (hleaves : LeavesHoldSignals root)
    {c p : Nat} (hparent : m.parent c = some p) (hclass : (m.kind c).hasClass = true) :
    (m.kind p).isGroup = true := by
  obtain ⟨hmirrors, _, hstand⟩ := mirrors_of_ofElement hread
  have hc : c < m.size := Model.lt_size_of_parent hparent
  have hnotreg : (m.kind p).isReg = false := by
    have hedge := hstand c hc
    rw [hparent] at hedge
    exact hedge.isReg_eq_false (Kind.field?_isSome_eq_false hclass)
  cases hgroup : (m.kind p).isGroup with
  | true => rfl
  | false =>
    -- The element of `p` is a leaf, and the element of `c` is inside it.
    obtain ⟨e, he, hagree⟩ := exists_element hread (Nat.lt_trans (Model.parent_lt hparent) hc)
    cases e with
    | node tag inside =>
      rw [Model.unfold_eq] at hagree
      obtain ⟨hdecoded, hinside⟩ := Tree.agree_node_iff.1 hagree
      obtain ⟨child, hchild, hcagree⟩ := forall₂_exists_left hinside
        (List.mem_map_of_mem (f := m.unfold) ((hmirrors.links.mem_children p c).2 hparent))
      have hsignal : child.label.name = "signal" :=
        hleaves _ he (hdecoded.kind.name_mem_leafNames hgroup hnotreg) child hchild
      cases child with
      | node ctag _ =>
        rw [Model.unfold_eq] at hcagree
        have hkind := (Tree.agree_node_iff.1 hcagree).1.kind.not_hasClass hsignal
        rw [Model.kind, hkind] at hclass
        cases hclass

end Description

/-! ## Blocks -/

namespace Classes

/-- The lines make the object of a member and put it into the map of its block, once; for an array
they stand in a loop over the elements. -/
def Wires (style : CodeStyle) (member : Member) (lines : List String) : Prop :=
  ∃ opening steps target name closing,
    lines = opening ++ [
      indented steps (target ++ " = " ++ creation style member.className name ++ ";"),
      indented steps (target ++ ".configure(this);"),
      indented steps (target ++ ".build();"),
      indented steps (mappingCall member target)] ++ closing ∧
    match member.dims with
    | none => opening = [] ∧ closing = []
    | some dims => opening = [indented 2 ("foreach(this." ++ member.name ++ "[" ++
        Text.join ", " (loopVariables dims) ++ "]) begin")] ∧ closing = [indented 2 "end"]

theorem wires_memberLines (style : CodeStyle) (member : Member) :
    Wires style member (memberLines style member) := by
  simp only [memberLines]
  cases hdims : member.dims with
  | none =>
    refine ⟨[], 2, "this." ++ member.name, inQuotes member.name, [], rfl, ?_⟩
    rw [hdims]
    exact ⟨rfl, rfl⟩
  | some dims =>
    refine ⟨_, 3, _, _, _, rfl, ?_⟩
    rw [hdims]
    exact ⟨rfl, rfl⟩

namespace Context

variable (ctx : Context)

/-- The member stands for the component: a register goes into the map as a register, and every other
component with its own map. -/
structure MemberOf (c : Nat) (member : Member) : Prop where
  className : member.className = ctx.names.className c
  name : member.name = ctx.names.memberName c
  dims : member.dims = (ctx.names.model.node c).array.map (·.dims)
  offset : Offset.ofNode (ctx.names.model.node c) = .ok member.offset
  mapping : member.mapping = if (ctx.names.model.kind c).isReg then
    .register (ctx.names.model.registerCode c) else .submap

/-- The class makes an object for each component just below a block, in their order: it has one
member for each, one line for each that declares it, and then, after the map, the lines for each
that make it and put it into the map. -/
def Instantiates (style : CodeStyle) (h : Nat) (body : Body) : Prop :=
  ∃ bytes members,
    body = .block (ctx.heading h) bytes (ctx.names.model.endianness h) members ∧
    List.Forall₂ ctx.MemberOf (ctx.components h) members ∧
    (∀ member ∈ members, Wires style member (memberLines style member)) ∧
    body.lines style =
      headingLines style (ctx.heading h) "uvm_reg_block" ++
      members.map declarationLine ++
      ([""] ++ blockConstructorLines style (ctx.heading h).className ++
        ["", indented 1 "virtual function void build();",
          mapLine bytes (ctx.names.model.endianness h)]) ++
      members.flatMap (memberLines style) ++
      [indented 1 "endfunction : build", "endclass : " ++ (ctx.heading h).className, ""]

variable {ctx}

theorem memberOf_of_member {c : Nat} {member : Member} (h : ctx.member c = .ok member) :
    ctx.MemberOf c member := by
  simp only [Context.member, bind_eq_ok, pure_eq_ok] at h
  obtain ⟨offset, hoffset, rfl⟩ := h
  exact ⟨rfl, rfl, rfl, hoffset, rfl⟩

/-- **A block makes an object for each component just below it.** -/
theorem instantiates_of_block {h : Nat} {body : Body} (style : CodeStyle)
    (hok : (ctx.block h).outcome = .ok body) : ctx.Instantiates style h body := by
  rw [outcome_block] at hok
  simp only [bind_eq_ok, pure_eq_ok] at hok
  obtain ⟨bytes, _, members, hmembers, rfl⟩ := hok
  refine ⟨bytes, members, rfl, ?_, ?_, ?_⟩
  · refine (mapM_eq_ok.1 hmembers).imp ?_
    intro c member hmember
    exact memberOf_of_member hmember
  · intro member _
    exact wires_memberLines style member
  · simp [Body.lines, blockLines, buildLines]

theorem count_components (hf : ctx.names.model.Forest) {c p : Nat}
    (hparent : ctx.names.model.parent c = some p)
    (hclass : (ctx.names.model.kind c).hasClass = true) : (ctx.components p).count c = 1 := by
  have hmem : c ∈ ctx.components p :=
    List.mem_filter.2 ⟨(hf.mem_children p c).2 hparent, hclass⟩
  have hnodup : (ctx.components p).Nodup :=
    (hf.nodup_children p).sublist List.filter_sublist
  exact List.count_eq_one_of_mem hnodup hmem

theorem block_of_describes {h : Nat} {body : Body} (hd : ctx.Describes h body)
    (hgroup : (ctx.names.model.kind h).isGroup = true) : (ctx.block h).outcome = .ok body := by
  cases hd with
  | block _ hbytes hmembers =>
    rw [outcome_block]
    exact bind_eq_ok.2 ⟨_, hbytes, bind_eq_ok.2 ⟨_, mapM_eq_ok.2 hmembers, rfl⟩⟩
  | register hk =>
    rw [hk] at hgroup
    cases hgroup
  | memory hk _ =>
    rw [hk] at hgroup
    cases hgroup

end Context

end Classes

theorem Model.exists_parent_of_mem_region {m : Model} {top c : Nat} (hc : c ∈ m.region top)
    (hne : c ≠ top) : ∃ p ∈ m.region top, m.parent c = some p := by
  obtain ⟨hlt, hline⟩ := Model.mem_region.1 hc
  have habove : top ∈ m.ancestors c := (Model.mem_lineage_iff.1 hline).resolve_left (Ne.symm hne)
  obtain ⟨p, hparent, hpline⟩ := Model.exists_parent_of_mem_ancestors habove
  have hplt : p < m.size := Nat.lt_trans (Model.parent_lt hparent) hlt
  exact ⟨p, Model.mem_region.2 ⟨hplt, hpline⟩, hparent⟩

open Classes

namespace Exporter

variable {root : Element} {m : Model} {e : Exporter} {top : Nat} {output : String} {layer : Layer}

/-- The class of a block is in the layer, or one that was written for another component of its
declaration has its name. -/
theorem block_written_or_shared (hm : m.Built) (hok : (e.render m top output).outcome = .ok layer)
    {p : Nat} (hp : p ∈ m.classed top) (hgroup : (m.kind p).isGroup = true) :
    (∃ body ∈ layer.bodies, ((e.context m top).block p).outcome = .ok body) ∨
      ∃ f ∈ m.classed top, f ≠ p ∧
        (m.node f).decl.isSome = true ∧ (m.node f).decl = (m.node p).decl ∧
        ∃ body ∈ layer.bodies, (e.context m top).Describes f body ∧
          body.name = (e.context m top).names.className p := by
  obtain ⟨f, hf, hsame, body, hbody, hd, hname, _⟩ := exists_class hm hok hp
  by_cases heq : f = p
  · subst heq
    exact Or.inl ⟨body, hbody, Context.block_of_describes hd hgroup⟩
  · obtain ⟨hknown, hdecl⟩ := hsame.resolve_left heq
    exact Or.inr ⟨f, hf, heq, hknown, hdecl, body, hbody, hd, hname⟩

/-- **No component is lost**, where memories, signals and fields hold nothing but signals: in a
rendered layer every component below the top stands just below an address map or register file, as
one of its components; the class that is made for that one has one member for each of them, in
their order; and this class is in the layer, or the class of another component of the same
declaration, under the name of this one. -/
theorem components_instantiated (hread : Description.ofElement root = .ok m)
    (hleaves : Description.LeavesHoldSignals root)
    (hok : (e.render m top output).outcome = .ok layer) :
    ∀ c ∈ m.classed top, c ≠ top →
      ∃ p ∈ m.classed top, m.parent c = some p ∧ (m.kind p).isGroup = true ∧
        ((e.context m top).components p).Sublist (m.children p) ∧
        ((e.context m top).components p).count c = 1 ∧
        (∀ body, ((e.context m top).block p).outcome = .ok body →
          (e.context m top).Instantiates layer.style p body) ∧
        ((∃ body ∈ layer.bodies, ((e.context m top).block p).outcome = .ok body) ∨
          ∃ f ∈ m.classed top, f ≠ p ∧
            (m.node f).decl.isSome = true ∧ (m.node f).decl = (m.node p).decl ∧
            ∃ body ∈ layer.bodies, (e.context m top).Describes f body ∧
              body.name = (e.context m top).names.className p) := by
  intro c hc hne
  have hbuilt : m.Built := Description.built_of_ofElement hread
  obtain ⟨hregion, hclass⟩ := Model.mem_classed.1 hc
  obtain ⟨p, hpregion, hparent⟩ := Model.exists_parent_of_mem_region hregion hne
  have hgroup : (m.kind p).isGroup = true :=
    Description.isGroup_of_parent hread hleaves hparent hclass
  have hp : p ∈ m.classed top :=
    Model.mem_classed.2 ⟨hpregion, Kind.hasClass_of_isGroup hgroup⟩
  have hcount : ((e.context m top).components p).count c = 1 :=
    Context.count_components hbuilt.forest hparent hclass
  refine ⟨p, hp, hparent, hgroup, List.filter_sublist, hcount, ?_,
    block_written_or_shared hbuilt hok hp hgroup⟩
  intro body hbody
  exact Context.instantiates_of_block layer.style hbody

end Exporter

/-! ### A register in a register file, and one in a memory -/

/-- A map with an array of register files, each with a register. -/
def dmaBoard : String :=
  "<model><addrmap name=\"soc\"><regfile name=\"dma\" dims=\"2\" stride=\"8\">" ++
    "<reg name=\"ctrl\"/></regfile></addrmap></model>"

/-- What there is to know about the design of a text: its element, and whether the register at the
third place gets a class, and inside what. -/
def innerRegister (text : String) : Option (Bool × Except Failure (Bool × Option Nat × Bool)) :=
  (Element.ofText? text).map fun root =>
    (decide (Description.LeavesHoldSignals root),
      (fun r => (decide (2 ∈ r.1.classed 0), r.1.parent 2, (r.1.kind 1).isGroup)) <$>
        plainExporter.withLayer (Description.ofElement root) 0 "soc_pkg.sv")

theorem exists_of_innerRegister {text : String} {leaves group : Bool} {p : Nat}
    (h : innerRegister text = some (leaves, .ok (true, some p, group))) :
    ∃ root m layer, Element.ofText? text = some root ∧
      decide (Description.LeavesHoldSignals root) = leaves ∧ Description.ofElement root = .ok m ∧
      (plainExporter.render m 0 "soc_pkg.sv").outcome = .ok layer ∧
      2 ∈ m.classed 0 ∧ m.parent 2 = some p ∧ (m.kind 1).isGroup = group := by
  obtain ⟨root, htext, hroot⟩ := Option.map_eq_some_iff.1 h
  obtain ⟨hleaves, hlayer⟩ := Prod.mk.inj hroot
  obtain ⟨⟨m, layer⟩, hok, hfacts⟩ := map_eq_ok.1 hlayer
  obtain ⟨hread, hrender⟩ := Exporter.withLayer_eq_ok.1 hok
  obtain ⟨hclassed, hparent, hgroup⟩ := by
    simpa only [Prod.mk.injEq, decide_eq_true_eq] using hfacts
  exact ⟨root, m, layer, htext, hleaves, hread, hrender, hclassed, hparent, hgroup⟩

theorem innerRegister_dmaBoard :
    innerRegister dmaBoard = some (true, .ok (true, some 1, true)) := by
  decide +kernel

/-- The register is a member of its register file, once. -/
theorem Exporter.components_instantiated_dmaBoard :
    ∃ root m layer, Element.ofText? dmaBoard = some root ∧ Description.LeavesHoldSignals root ∧
      Description.ofElement root = .ok m ∧
      (plainExporter.render m 0 "soc_pkg.sv").outcome = .ok layer ∧
      2 ∈ m.classed 0 ∧ ((plainExporter.context m 0).components 1).count 2 = 1 := by
  obtain ⟨root, m, layer, htext, hleaves, hread, hrender, hclassed, hone, _⟩ :=
    exists_of_innerRegister innerRegister_dmaBoard
  have hleaves := decide_eq_true_iff.1 hleaves
  obtain ⟨p, _, hparent, _, _, hcount, _⟩ :=
    components_instantiated hread hleaves hrender 2 hclassed (by decide)
  obtain rfl : p = 1 := Option.some.inj (hparent.symm.trans hone)
  exact ⟨root, m, layer, htext, hleaves, hread, hrender, hclassed, hcount⟩

/-- A map with a memory, in which there is a register. -/
def hiddenCtrl : String :=
  "<model><addrmap name=\"soc\"><mem name=\"ram\" mementries=\"16\" memwidth=\"32\">" ++
    "<reg name=\"ctrl\"/></mem></addrmap></model>"

theorem innerRegister_hiddenCtrl :
    innerRegister hiddenCtrl = some (false, .ok (true, some 1, false)) := by
  decide +kernel

/-- **A component can be lost**: a register in a memory is accepted and gets its class, but no block
stands around it that makes an object of the class. -/
theorem Exporter.components_can_be_lost :
    ¬∀ (text : String) (m : Model) (e : Exporter) (top : Nat) (output : String) (layer : Layer),
      Description.read text = .ok m → (e.render m top output).outcome = .ok layer →
      ∀ c ∈ m.classed top, c ≠ top → ∃ p, m.parent c = some p ∧ (m.kind p).isGroup = true := by
  intro hall
  obtain ⟨root, m, layer, htext, _, hroot, hrender, hclassed, hone, hnogroup⟩ :=
    exists_of_innerRegister innerRegister_hiddenCtrl
  have hread : Description.read hiddenCtrl = .ok m :=
    Description.read_eq_ok_iff.2 ⟨root, htext, hroot⟩
  obtain ⟨p, hparent, hgroup⟩ := hall hiddenCtrl m plainExporter 0 "soc_pkg.sv" layer hread hrender
    2 hclassed (by decide)
  obtain rfl : p = 1 := Option.some.inj (hparent.symm.trans hone)
  rw [hnogroup] at hgroup
  cases hgroup

end RegLayer
