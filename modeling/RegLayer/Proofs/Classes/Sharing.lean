/-
# `RegLayer.Proofs.Classes.Sharing` — nothing is lost by sharing classes

A class is written for one component and serves others, and it refers to its members by names that
were computed for the first one.  Read the classes the way the generated code does: the class of a
name says what is in it, and each member stands for what the class of the member's name says
(`assemble`).  What comes out is compared with what the component itself calls for, at every depth
(`Outline.design`, which keeps all fields and components whatever they stand in).

A run keeps that every class written assembles to what the classes tell of whoever uses it
(`Run.assemble_eq_told`): alike components are told of alike, so a class that serves again is as
good as a class of one's own.  Sharing therefore loses nothing.  What is lost is lost by the classes
themselves, shared or not: they tell of the components just below blocks and of the fields just
below registers, so the two sides are equal exactly where everything stands there
(`sharing_loses_nothing`), and a register in a memory is lost (`sharing_can_lose`).

Taken as given: the layer has been rendered, from a model that was built step by step; components of
one known declaration are alike; and no two groups have one path, without which the widths of the
buses are mixed up.
-/
import RegLayer.Proofs.Classes.Design
import RegLayer.Proofs.Classes.Once

namespace RegLayer

open Classes

theorem Model.Alike.told_eq {m : Model} {a b : Nat} (h : m.Alike a b) (upperCase : Bool) :
    Outline.told upperCase (m.outline a) = Outline.told upperCase (m.outline b) := by
  obtain ⟨hkind, hchildren⟩ := h
  rw [m.outline_eq a, m.outline_eq b, Outline.told, Outline.told, hchildren, hkind]

/-! ## What classes say -/

namespace Classes

def Member.slot (c : Member) : Slot where
  name := c.name
  dims := c.dims
  base := c.offset.base
  steps := c.offset.steps.map UInt64.toNat
  mapping := c.mapping

/-- The members of a block; other classes have none. -/
def Body.members : Body → List Member
  | .block _ _ _ members => members
  | .register _ _ _ => []
  | .memory _ _ _ _ _ _ => []

def Body.content : Body → Content
  | .register _ width fields => ⟨.register width, fields, []⟩
  | .block _ busBytes _ members => ⟨.block busBytes.toNat, [], members.map Member.slot⟩
  | .memory _ busBytes _ entries width code =>
    ⟨.memory busBytes.toNat entries width code, [], []⟩

/-- What the class of a name says together with the classes of its members, and so on downwards;
of the classes the last one written comes first, and each refers to classes written before it. -/
def assemble : List Body → String → Option (Tree Content)
  | [], _ => none
  | body :: before, name =>
    if body.name = name then
      (body.members.mapM fun c => assemble before c.className).map (.node body.content)
    else assemble before name

end Classes

/-! ## One class says what its component calls for -/

namespace Checked

theorem toNat_product {factors : List UInt64} {p : UInt64} (h : product factors = .ok p) :
    p.toNat = (factors.map UInt64.toNat).prod := by
  have key : ∀ start : UInt64, factors.foldlM mul64 start = .ok p →
      p.toNat = start.toNat * (factors.map UInt64.toNat).prod := by
    clear h
    induction factors with
    | nil =>
      intro start h
      obtain rfl := Except.ok.inj h
      exact (Nat.mul_one _).symm
    | cons d ds ih =>
      intro start h
      rw [List.foldlM_cons] at h
      obtain ⟨next, hnext, hrest⟩ := bind_eq_ok.1 h
      rw [ih next hrest, mul64_eq_ok_iff.1 hnext, List.map_cons, List.prod_cons, Nat.mul_assoc]
  exact (key 1 h).trans (Nat.one_mul _)

end Checked

namespace Offset

theorem toNat_stepsOf {stride : UInt64} {dims steps : List UInt64}
    (h : stepsOf stride dims = .ok steps) :
    steps.map UInt64.toNat = ArrayShape.distances stride dims := by
  induction dims generalizing steps with
  | nil =>
    obtain rfl := Except.ok.inj h
    rfl
  | cons d inner ih =>
    obtain ⟨elements, helements, h⟩ := bind_eq_ok.1 h
    obtain ⟨step, hstep, h⟩ := bind_eq_ok.1 h
    obtain ⟨rest, hrest, h⟩ := bind_eq_ok.1 h
    obtain rfl := Except.ok.inj h
    rw [List.map_cons, ih hrest, Checked.mul64_eq_ok_iff.1 hstep, Checked.toNat_product helements]
    rfl

theorem eq_of_ofNode {n : Node} {o : Offset} (h : ofNode n = .ok o) :
    o.base = n.offset ∧
      o.steps.map UInt64.toNat =
        n.array.elim [] fun shape => ArrayShape.distances shape.stride shape.dims := by
  unfold ofNode at h
  cases ha : n.array with
  | none =>
    rw [ha] at h
    obtain rfl := Except.ok.inj h
    exact ⟨rfl, rfl⟩
  | some shape =>
    rw [ha] at h
    obtain ⟨steps, hsteps, rfl⟩ := map_eq_ok.1 h
    exact ⟨rfl, toNat_stepsOf hsteps⟩

end Offset

namespace Classes.Context

variable {ctx : Context} {h : Nat}

theorem map_fieldMember :
    (ctx.names.model.fields h).map ctx.fieldMember =
      ((ctx.names.model.children h).map ctx.names.model.outline).filterMap
        (Outline.field? ctx.names.upperCase) := by
  unfold Model.fields
  rw [List.map_filterMap, List.filterMap_map]
  congr 1
  funext c
  rw [Function.comp_apply, Outline.field?, Model.kind_outline, Model.place_outline, Option.map_map]
  rfl

theorem slot_of_member {member : Member} (hm : ctx.member h = .ok member) :
    member.slot = Outline.slot ctx.names.upperCase
        ((ctx.names.model.outline h).children.filterMap (Outline.field? ctx.names.upperCase))
        (ctx.names.model.outline h) ∧
      member.className = ctx.names.className h := by
  obtain ⟨offset, hoffset, hret⟩ := bind_eq_ok.1 hm
  obtain rfl := Except.ok.inj hret
  obtain ⟨hbase, hsteps⟩ := Offset.eq_of_ofNode hoffset
  have hany : ((ctx.names.model.fields h).map ctx.fieldMember).any (·.writable) =
      (ctx.names.model.fields h).any (·.2.policy.canWrite) := by
    rw [List.any_map]
    rfl
  refine ⟨?_, rfl⟩
  unfold Member.slot Outline.slot
  rw [Model.children_outline, ← map_fieldMember, hany, Model.kind_outline, Model.place_outline,
    hbase, hsteps]
  rfl

theorem parts_map_outline :
    ((ctx.names.model.children h).map ctx.names.model.outline).filterMap Outline.part? =
      (ctx.components h).map ctx.names.model.outline := by
  unfold components
  rw [List.filterMap_map, ← List.filterMap_eq_filter, List.map_filterMap]
  congr 1
  funext c
  rw [Function.comp_apply, Outline.part?, Model.kind_outline]
  cases hk : (ctx.names.model.kind c).hasClass <;> simp [Option.guard, hk]

theorem map_slot {comps : List Nat} {members : List Member}
    (hall : List.Forall₂ (fun c member => ctx.member c = .ok member) comps members) :
    members.map Member.slot = (comps.map ctx.names.model.outline).map fun t =>
      Outline.slot ctx.names.upperCase
        (t.children.filterMap (Outline.field? ctx.names.upperCase)) t := by
  induction hall with
  | nil => rfl
  | cons hc _ ih => rw [List.map_cons, List.map_cons, List.map_cons, (slot_of_member hc).1, ih]

end Classes.Context

theorem Model.widestAccess_children {m : Model} {h : Nat} (hk : (m.kind h).isGroup = true) :
    Outline.widestAccess ((m.children h).map m.outline) = (m.widest h).toNat := by
  have hin : ∀ l : List Nat, (m.widestIn l).toNat =
      (l.map fun a => (m.kind a).accessBits.toNat).foldr max 0 := by
    intro l
    induction l with
    | nil => rfl
    | cons a l ih =>
      show (max (m.kind a).accessBits (m.widestIn l)).toNat = _
      rw [toNat_max, ih]
      rfl
  have hvisits : ((m.children h).map m.outline).flatMap Tree.postorder =
      ((m.children h).flatMap m.postorder).map fun a => (m.place a, m.kind a) := by
    rw [List.flatMap_map, List.map_flatMap]
    exact List.flatMap_congr fun c _ => m.postorder_outline c
  unfold Outline.widestAccess
  rw [hvisits, List.map_map, widest_eq, Kind.accessBits_of_isGroup hk, zero_max32, hin]
  rfl

namespace Classes.Context

variable {e : Exporter} {m : Model} {top h : Nat}

/-- **A class says what is told of its component**, where no two groups share a path. -/
theorem content_of_describes {body : Body} (hd : (e.context m top).Describes h body)
    (hh : h ∈ m.postorder top)
    (hpaths : ∀ a ∈ m.groups top, ∀ b ∈ m.groups top, m.path a = m.path b → a = b) :
    body.content = Outline.toldContent e.options.upperCaseNames (m.kind h)
      ((m.children h).map m.outline) := by
  cases hd with
  | @register width accessWidth hk =>
    have hk' : m.kind h = .reg width accessWidth := hk
    rw [hk']
    exact congrArg (Content.mk (.register width) · []) map_fieldMember
  | @block bytes members hk hbytes hall =>
    have hk' : (m.kind h).isGroup = true := hk
    have hg : h ∈ m.groups top := List.mem_filter.2 ⟨hh, hk'⟩
    have hwidth : (WidthTable.build m top).width? (m.path h) = some (m.widest h) :=
      WidthTable.width?_build_path hg fun a ha => hpaths a ha h hg
    have hbytes' : (busBytes (m.path h) (m.widest h)).outcome = .ok bytes := by
      have hbits : ((e.context m top).widths.width? (m.path h)).getD 0 = m.widest h :=
        congrArg (Option.getD · 0) hwidth
      exact hbits ▸ hbytes
    have hslots := (map_slot hall).trans (congrArg _ parts_map_outline.symm)
    rw [Outline.toldContent_of_isGroup _ hk', Model.widestAccess_children hk']
    exact congrArg₂ (Content.mk · []) (congrArg Shape.block (toNat_busBytes hbytes')) hslots
  | @memory bytes width entries policy hk hbytes =>
    have hk' : m.kind h = .mem entries width policy := hk
    rw [hk']
    exact congrArg (Content.mk · [] [])
      (congrArg (Shape.memory · entries width policy.memoryCode) (toNat_busBytes hbytes))

/-! ## A run tells of all components -/

theorem told_outline (ctx : Context) (h : Nat) (upperCase : Bool) :
    Outline.told upperCase (ctx.names.model.outline h) =
      .node (Outline.toldContent upperCase (ctx.names.model.kind h)
          ((ctx.names.model.children h).map ctx.names.model.outline))
        (if (ctx.names.model.kind h).isGroup = true then
          (ctx.components h).map fun c => Outline.told upperCase (ctx.names.model.outline c)
        else []) := by
  rw [Model.outline_eq, Outline.told, Outline.toldIn_eq, parts_map_outline, List.map_map]
  rfl

theorem mapM_assemble {ctx : Context} {before : List Body} {comps : List Nat}
    {members : List Member} {upperCase : Bool}
    (hall : List.Forall₂ (fun c member => ctx.member c = .ok member) comps members)
    (hcomps : ∀ c ∈ comps, assemble before (ctx.names.className c) =
      some (Outline.told upperCase (ctx.names.model.outline c))) :
    (members.mapM fun c => assemble before c.className) =
      some (comps.map fun c => Outline.told upperCase (ctx.names.model.outline c)) := by
  induction hall with
  | nil => rfl
  | @cons c member comps members hc _ ih =>
    have hhead := hcomps c List.mem_cons_self
    have hrest := ih fun d hd => hcomps d (List.mem_cons_of_mem c hd)
    rw [List.mapM_cons, (slot_of_member hc).2, hhead, hrest]
    rfl

theorem assemble_of_describes {body : Body} {before : List Body}
    (hd : (e.context m top).Describes h body) (hh : h ∈ m.postorder top)
    (hpaths : ∀ a ∈ m.groups top, ∀ b ∈ m.groups top, m.path a = m.path b → a = b)
    (hcomps : ∀ c ∈ (e.context m top).components h,
      assemble before ((e.context m top).names.className c) =
        some (Outline.told e.options.upperCaseNames (m.outline c))) :
    assemble (body :: before) ((e.context m top).names.className h) =
      some (Outline.told e.options.upperCaseNames (m.outline h)) := by
  have hcontent := content_of_describes hd hh hpaths
  have htold := told_outline (e.context m top) h e.options.upperCaseNames
  have hmembers : (body.members.mapM fun c => assemble before c.className) =
      some (if (m.kind h).isGroup = true then ((e.context m top).components h).map fun c =>
        Outline.told e.options.upperCaseNames (m.outline c) else []) := by
    cases hd with
    | register hk =>
      rw [show m.kind h = _ from hk]
      rfl
    | block hk _ hall =>
      rw [if_pos (show (m.kind h).isGroup = true from hk)]
      exact mapM_assemble hall hcomps
    | memory hk _ =>
      rw [show m.kind h = _ from hk]
      rfl
  rw [assemble, if_pos hd.name_eq, hmembers, hcontent]
  exact congrArg some htold.symm

/-- **What a run keeps**: the classes written assemble, for every component visited, to what is
told of the component, be the class its own or one that serves again. -/
theorem Run.assemble_eq_told {done : List Nat} {out : Outcome}
    (hrun : (e.context m top).Run done out) (hfirst : m.ChildrenFirst done)
    (hin : ∀ h ∈ done, h ∈ m.postorder top)
    (hpaths : ∀ a ∈ m.groups top, ∀ b ∈ m.groups top, m.path a = m.path b → a = b)
    (hshare : ∀ a ∈ m.postorder top, ∀ b ∈ m.postorder top, (e.context m top).bears a = true →
      (e.context m top).bears b = true → ((e.context m top).declOf a).isSome = true →
      (e.context m top).declOf a = (e.context m top).declOf b → m.Alike a b) :
    ∀ h ∈ done, (e.context m top).bears h = true →
      assemble out.bodies.reverse ((e.context m top).names.className h) =
        some (Outline.told e.options.upperCaseNames (m.outline h)) := by
  induction hrun with
  | start =>
    intro h hh
    cases hh
  | @skip done out h _ hb ih =>
    intro g hg hgb
    rcases List.mem_append.1 hg with hgd | hgh
    · exact ih hfirst.of_append (fun a ha => hin a (List.mem_append_left _ ha)) g hgd hgb
    · rw [List.mem_singleton.1 hgh, hb] at hgb
      cases hgb
  | @write done out h body hrun hb hfree hd ih =>
    have ih := ih hfirst.of_append fun a ha => hin a (List.mem_append_left _ ha)
    rw [hrun.holder?_eq] at hfree
    have hnew := first?_eq_none.1 (Option.map_eq_none_iff.1 hfree)
    intro g hg hgb
    rw [List.reverse_append, List.reverse_singleton, List.singleton_append]
    rcases List.mem_append.1 hg with hgd | hgh
    · -- An earlier component has another name, and looks past the new class.
      have hother : body.name ≠ (e.context m top).names.className g :=
        fun heq => hnew g hgd hgb (heq.symm.trans hd.name_eq)
      rw [assemble, if_neg hother]
      exact ih g hgd hgb
    · rw [List.mem_singleton.1 hgh]
      refine assemble_of_describes hd (hin h (List.mem_append_right _ List.mem_cons_self)) hpaths ?_
      intro c hc
      obtain ⟨hchild, hcb⟩ := List.mem_filter.1 hc
      exact ih c (hfirst.mem_of_concat hchild) hcb
  | @reuse done out h hrun hb hheld hknown ih =>
    have ih := ih hfirst.of_append fun a ha => hin a (List.mem_append_left _ ha)
    intro g hg hgb
    rcases List.mem_append.1 hg with hgd | hgh
    · exact ih g hgd hgb
    · -- The class was written for a component of the same declaration.
      rw [List.mem_singleton.1 hgh]
      rw [hrun.holder?_eq] at hheld
      obtain ⟨f, hf, hdecl⟩ := Option.map_eq_some_iff.1 hheld
      obtain ⟨hfd, hfb, hfname⟩ := first?_eq_some hf
      have halike : m.Alike f h := hshare f (hin f (List.mem_append_left _ hfd)) h
        (hin h (List.mem_append_right _ List.mem_cons_self)) hfb hb (hdecl ▸ hknown) hdecl
      rw [← hfname, ih f hfd hfb, halike.told_eq]

end Classes.Context

theorem Exporter.assemble_of_render {e : Exporter} {m : Model} {top : Nat} {output : String}
    {layer : Layer} (hm : m.Built) (hok : (e.render m top output).outcome = .ok layer)
    (hshare : ∀ a ∈ m.classed top, ∀ b ∈ m.classed top, (m.node a).decl.isSome = true →
      (m.node a).decl = (m.node b).decl → m.Alike a b)
    (hpaths : ∀ a ∈ m.region top, ∀ b ∈ m.region top, (m.kind a).isGroup = true →
      (m.kind b).isGroup = true → m.path a = m.path b → a = b) {h : Nat}
    (hh : h ∈ m.classed top) :
    assemble layer.bodies.reverse ((e.context m top).names.className h) =
      some (Outline.told e.options.upperCaseNames (m.outline h)) := by
  obtain ⟨hmap, out, hrun, hbodies, _, _⟩ := run_of_render hok
  have hf : m.Forest := hm.forest
  have htop : top < m.size := Model.lt_size_of_isAddrmap hmap
  have hregion : ∀ {a : Nat}, a ∈ m.postorder top → a ∈ m.region top :=
    (Model.mem_region_iff_mem_postorder hf htop).2
  have hpaths' : ∀ a ∈ m.groups top, ∀ b ∈ m.groups top, m.path a = m.path b → a = b := by
    intro a ha b hb
    obtain ⟨had, hak⟩ := List.mem_filter.1 ha
    obtain ⟨hbd, hbk⟩ := List.mem_filter.1 hb
    exact hpaths a (hregion had) b (hregion hbd) hak hbk
  have hassemble := hrun.assemble_eq_told (Model.childrenFirst_postorder hf top)
    (fun h hh => hh) hpaths' fun a ha b hb hab hbb => hshare a
      (Model.mem_classed.2 ⟨hregion ha, hab⟩) b (Model.mem_classed.2 ⟨hregion hb, hbb⟩)
  obtain ⟨hhr, hb⟩ := Model.mem_classed.1 hh
  rw [hbodies]
  exact hassemble h ((Model.mem_region_iff_mem_postorder hf htop).1 hhr) hb

/-- **Sharing classes loses nothing.**  Let components of one known declaration be alike, and let no
two groups have the same path.  Then in a rendered layer, for every component with a class, the
class of its name and, member by member, the classes of the member names say all that the component
itself calls for, at every depth, if from it on downwards components stand just below address maps
and register files and fields just below registers; and only then. -/
theorem Exporter.sharing_loses_nothing {e : Exporter} {m : Model} {top : Nat} {output : String}
    {layer : Layer} (hm : m.Built) (hok : (e.render m top output).outcome = .ok layer)
    (hshare : ∀ a ∈ m.classed top, ∀ b ∈ m.classed top, (m.node a).decl.isSome = true →
      (m.node a).decl = (m.node b).decl → m.Alike a b)
    (hpaths : ∀ a ∈ m.region top, ∀ b ∈ m.region top, (m.kind a).isGroup = true →
      (m.kind b).isGroup = true → m.path a = m.path b → a = b) :
    ∀ h ∈ m.classed top,
      assemble layer.bodies.reverse ((e.context m top).names.className h) =
          some (Outline.design e.options.upperCaseNames (m.outline h)) ↔
        m.Housed h := by
  intro h hh
  rw [assemble_of_render hm hok hshare hpaths hh, Option.some.injEq]
  exact Model.told_eq_design_iff_housed hm.forest (Model.lt_size_of_mem_classed hh) _

/-- What the second peripheral calls for. -/
example : Outline.design false (twinUarts.outline 7) =
    .node ⟨.block 4, [], [⟨"ctrl", none, 0, [], .register .rw⟩,
        ⟨"data", some [2, 3], 8, [6, 2], .register .rw⟩]⟩
      [.node ⟨.register 32, [⟨"en", 1, 0, .rw, false, some 0, true⟩,
          ⟨"irq", 1, 1, .w1c, false, some 0, true⟩], []⟩ [],
        .node ⟨.register 16, [⟨"value", 16, 0, .rw, false, some 0, true⟩], []⟩ []] := by
  decide +kernel

/-- The second peripheral is found in the classes that were written for the first one. -/
theorem Exporter.sharing_loses_nothing_twinUarts :
    ∃ layer, (plainExporter.render twinUarts 0 "soc_pkg.sv").outcome = .ok layer ∧
      layer.bodies.length = 5 ∧
      assemble layer.bodies.reverse "soc_t__uart_t" =
        some (Outline.design false (twinUarts.outline 7)) := by
  obtain ⟨layer, hok, hcounts⟩ := map_eq_ok.1 render_twinUarts
  have hclasses : layer.classes = 5 := congrArg Prod.fst hcounts
  have hname : (plainExporter.context twinUarts 0).names.className 7 = "soc_t__uart_t" := by
    decide +kernel
  have hall := sharing_loses_nothing (built_soc _) hok (by decide +kernel) (by decide +kernel) 7
    (by decide +kernel)
  have hdesign := hall.2 (by decide +kernel)
  obtain ⟨_, out, hrun, hbodies, hsize, _⟩ := run_of_render hok
  refine ⟨layer, hok, ?_, hname ▸ hdesign⟩
  rw [hbodies, ← hrun.register_size, ← hsize, hclasses]

/-- A map with a memory in which there is a register. -/
def heldCtrl : Model :=
  Model.ofForest ⟨#[]⟩
    [.node { name := "soc", kind := .addrmap .unspecified false }
      [.node { name := "ram", kind := .mem 16 32 .readWrite }
        [.node { name := "ctrl", kind := .reg 32 32 } []]]]

theorem render_heldCtrl :
    (·.classes) <$> (plainExporter.render heldCtrl 0 "soc_pkg.sv").outcome = .ok 3 := by
  decide +kernel

/-- **What stands in a memory is lost**: it is not so that the classes always say all that a
component calls for.  The register gets a class, but the class of the memory around it tells of no
component. -/
theorem Exporter.sharing_can_lose :
    ¬∀ (e : Exporter) (m : Model) (top : Nat) (output : String) (layer : Layer), m.Built →
      (e.render m top output).outcome = .ok layer →
      (∀ a ∈ m.classed top, ∀ b ∈ m.classed top, (m.node a).decl.isSome = true →
        (m.node a).decl = (m.node b).decl → m.Alike a b) →
      (∀ a ∈ m.region top, ∀ b ∈ m.region top, (m.kind a).isGroup = true →
        (m.kind b).isGroup = true → m.path a = m.path b → a = b) →
      ∀ h ∈ m.classed top, assemble layer.bodies.reverse ((e.context m top).names.className h) =
        some (Outline.design e.options.upperCaseNames (m.outline h)) := by
  intro hall
  obtain ⟨layer, hok, _⟩ := map_eq_ok.1 render_heldCtrl
  have hbuilt : heldCtrl.Built := Model.built_ofForest _ _
  have hshare : ∀ a ∈ heldCtrl.classed 0, ∀ b ∈ heldCtrl.classed 0,
      (heldCtrl.node a).decl.isSome = true →
      (heldCtrl.node a).decl = (heldCtrl.node b).decl → heldCtrl.Alike a b := by
    decide +kernel
  have hpaths : ∀ a ∈ heldCtrl.region 0, ∀ b ∈ heldCtrl.region 0,
      (heldCtrl.kind a).isGroup = true → (heldCtrl.kind b).isGroup = true →
      heldCtrl.path a = heldCtrl.path b → a = b := by
    decide +kernel
  have hram : 1 ∈ heldCtrl.classed 0 := by decide +kernel
  have hcalled := hall plainExporter heldCtrl 0 "soc_pkg.sv" layer hbuilt hok hshare hpaths 1 hram
  have htold := assemble_of_render hbuilt hok hshare hpaths hram
  -- The register has a class, but nothing is told of it where the memory is told of.
  have hdiffer : Outline.told false (heldCtrl.outline 1) ≠
      Outline.design false (heldCtrl.outline 1) := by
    decide +kernel
  exact hdiffer (Option.some.inj (htold.symm.trans hcalled))

end RegLayer
