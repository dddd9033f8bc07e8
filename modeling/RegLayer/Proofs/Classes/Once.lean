/-
# `RegLayer.Proofs.Classes.Once` — each class once, and before it is used

What a run keeps is best said of the names: the register holds a name for the first component that
wanted it (`Run.holder?_eq`), the names of the bodies are those of the components visited
(`Run.mem_names`), and no two bodies share one (`Run.nodup_names`).  Each is an induction over the
steps of the run.

A block refers to its members by name; since children come first in a traversal, each of those
names has its body already, be it the member's own or one written for another instance
(`Run.declared_before_use`).

`Exporter.classes_written_once` says this of a rendered layer, with the two counts.  Taken as
given: the model was built step by step, so that a traversal meets children before their parent.
-/
import RegLayer.Proofs.Layer
import RegLayer.Proofs.Model.Region

namespace RegLayer.Classes

namespace Context

variable {ctx : Context} {done : List Nat} {out : Outcome}

/-! ## Who holds a name -/

/-- The first component of a list that wants a class of this name. -/
def first? (ctx : Context) (l : List Nat) (name : String) : Option Nat :=
  l.find? fun h => ctx.bears h && ctx.names.className h == name

theorem first?_concat (l : List Nat) (h : Nat) (name : String) :
    ctx.first? (l ++ [h]) name =
      (ctx.first? l name).or
        (if ctx.bears h = true ∧ ctx.names.className h = name then some h else none) := by
  unfold first?
  rw [List.find?_append]
  by_cases hh : ctx.bears h = true ∧ ctx.names.className h = name
  · rw [if_pos hh, List.find?_singleton, if_pos (by simpa using hh)]
  · rw [if_neg hh, List.find?_singleton, if_neg (by simpa using hh)]

theorem first?_eq_some {l : List Nat} {name : String} {f : Nat} (hf : ctx.first? l name = some f) :
    f ∈ l ∧ ctx.bears f = true ∧ ctx.names.className f = name := by
  have hp := List.find?_some hf
  simp only [Bool.and_eq_true, beq_iff_eq] at hp
  exact ⟨List.mem_of_find?_eq_some hf, hp.1, hp.2⟩

theorem first?_eq_none {l : List Nat} {name : String} :
    ctx.first? l name = none ↔ ∀ h ∈ l, ctx.bears h = true → ctx.names.className h ≠ name := by
  unfold first?
  rw [List.find?_eq_none]
  simp

/-- **The register is exact**: it holds a name for the first component that wanted it. -/
theorem Run.holder?_eq (hrun : ctx.Run done out) (name : String) :
    out.register.holder? name = (ctx.first? done name).map ctx.declOf := by
  induction hrun with
  | start => rfl
  | @skip done out h _ hb ih =>
    rw [ih, first?_concat, if_neg (by simp [hb]), Option.or_none]
  | @write done out h body _ hb hfree _ ih =>
    rw [first?_concat]
    by_cases hname : ctx.names.className h = name
    · subst hname
      have hnone : ctx.first? done (ctx.names.className h) = none := by
        rw [ih] at hfree
        exact Option.map_eq_none_iff.1 hfree
      rw [hnone, if_pos ⟨hb, rfl⟩]
      exact List.lookup_cons_self
    · have hother : (name == ctx.names.className h) = false := beq_false_of_ne (Ne.symm hname)
      rw [if_neg (fun hh => hname hh.2), Option.or_none, ← ih]
      unfold ClassRegister.holder? claimed
      rw [List.lookup_cons, hother]
  | @reuse done out h _ hb hheld _ ih =>
    rw [first?_concat, ih]
    by_cases hname : ctx.names.className h = name
    · subst hname
      rw [ih] at hheld
      obtain ⟨f, hf, _⟩ := Option.map_eq_some_iff.1 hheld
      rw [hf]
      rfl
    · rw [if_neg (fun hh => hname hh.2), Option.or_none]

/-! ## The names of the bodies -/

/-- **Names are neither lost nor invented**: the bodies have the names of the components visited. -/
theorem Run.mem_names (hrun : ctx.Run done out) {name : String} :
    name ∈ out.bodies.map Body.name ↔
      ∃ h ∈ done, ctx.bears h = true ∧ ctx.names.className h = name := by
  induction hrun with
  | start => simp
  | @skip done out h _ hb ih =>
    rw [ih]
    simp [hb]
  | @write done out h body _ hb _ hd ih =>
    rw [List.map_append, List.mem_append, ih, List.map_singleton, List.mem_singleton, hd.name_eq]
    constructor
    · rintro (⟨g, hg, hgb, hname⟩ | rfl)
      · exact ⟨g, List.mem_append_left _ hg, hgb, hname⟩
      · exact ⟨h, List.mem_append_right _ List.mem_cons_self, hb, rfl⟩
    · rintro ⟨g, hg, hgb, hname⟩
      rcases List.mem_append.1 hg with hg | hg
      · exact Or.inl ⟨g, hg, hgb, hname⟩
      · obtain rfl := List.mem_singleton.1 hg
        exact Or.inr hname.symm
  | @reuse done out h hrun hb hheld _ ih =>
    rw [ih]
    constructor
    · rintro ⟨g, hg, hgb, hname⟩
      exact ⟨g, List.mem_append_left _ hg, hgb, hname⟩
    · rintro ⟨g, hg, hgb, hname⟩
      rcases List.mem_append.1 hg with hg | hg
      · exact ⟨g, hg, hgb, hname⟩
      · -- The component itself: its name is held, so an earlier one has it.
        obtain rfl := List.mem_singleton.1 hg
        rw [hrun.holder?_eq] at hheld
        obtain ⟨f, hf, _⟩ := Option.map_eq_some_iff.1 hheld
        obtain ⟨hfd, hfb, hfn⟩ := first?_eq_some hf
        exact ⟨f, hfd, hfb, hfn.trans hname⟩

theorem Run.nodup_names (hrun : ctx.Run done out) : (out.bodies.map Body.name).Nodup := by
  induction hrun with
  | start => exact List.nodup_nil
  | skip _ _ ih => exact ih
  | @write done out h body hrun hb hfree hd ih =>
    rw [List.map_append, List.map_singleton, hd.name_eq]
    refine List.nodup_append'.2 ⟨ih, List.nodup_singleton _, ?_⟩
    intro name hname hself
    obtain rfl := List.mem_singleton.1 hself
    obtain ⟨g, hg, hgb, hgn⟩ := hrun.mem_names.1 hname
    rw [hrun.holder?_eq] at hfree
    exact first?_eq_none.1 (Option.map_eq_none_iff.1 hfree) g hg hgb hgn
  | reuse _ _ _ _ ih => exact ih

/-! ## Counts -/

theorem Run.register_size (hrun : ctx.Run done out) : out.register.size = out.bodies.length := by
  induction hrun with
  | start => rfl
  | skip _ _ ih => exact ih
  | write _ _ _ _ ih =>
    rw [List.length_append, List.length_singleton, ← ih]
    rfl
  | reuse _ _ _ _ ih => exact ih

theorem Run.length_add_reused (hrun : ctx.Run done out) :
    out.bodies.length + out.reused = (done.filter ctx.bears).length := by
  induction hrun with
  | start => rfl
  | skip _ hb ih => simp [ih, hb]
  | write _ hb _ _ ih =>
    simp only [List.filter_append, List.length_append, List.filter_singleton, hb, ← ih]
    simp only [List.length_singleton, cond_true]
    omega
  | reuse _ hb _ _ ih =>
    simp only [List.filter_append, List.length_append, List.filter_singleton, hb, ← ih]
    simp only [List.length_singleton, cond_true]
    omega

/-! ## Before use -/

theorem exists_component_of_member {comps : List Nat} {members : List Member} {c : Member}
    (hall : List.Forall₂ (fun h member => ctx.member h = .ok member) comps members)
    (hc : c ∈ members) : ∃ h ∈ comps, c.className = ctx.names.className h := by
  obtain ⟨h, hh, hmember⟩ := forall₂_exists_left hall hc
  obtain ⟨offset, _, hret⟩ := bind_eq_ok.1 hmember
  obtain rfl := Except.ok.inj hret
  exact ⟨h, hh, rfl⟩

/-- Every name that a block uses for a member belongs to a body written before it. -/
def DeclaredBeforeUse (bodies : List Body) : Prop :=
  ∀ earlier heading bytes endianness members later,
    bodies = earlier ++ .block heading bytes endianness members :: later →
      ∀ c ∈ members, c.className ∈ earlier.map Body.name

theorem Run.declared_before_use (hrun : ctx.Run done out)
    (hfirst : ctx.names.model.ChildrenFirst done) : DeclaredBeforeUse out.bodies := by
  induction hrun with
  | start =>
    intro earlier heading bytes endianness members later heq
    simp at heq
  | skip _ _ ih => exact ih hfirst.of_append
  | @write done out h body hrun hb _ hd ih =>
    intro earlier heading bytes endianness members later heq c hc
    rcases List.eq_nil_or_concat later with rfl | ⟨later, last, rfl⟩
    · -- The block is the body just written: its members are children of `h`.
      obtain ⟨rfl, rfl⟩ := List.append_inj' heq rfl |>.imp_right fun h => List.singleton_inj.1 h
      cases hd with
      | block _ _ hall =>
        obtain ⟨g, hg, hname⟩ := exists_component_of_member hall hc
        obtain ⟨hgc, hgb⟩ := List.mem_filter.1 hg
        rw [hname]
        exact hrun.mem_names.2 ⟨g, hfirst.mem_of_concat hgc, hgb, rfl⟩
    · have heq' : out.bodies = earlier ++ .block heading bytes endianness members :: later := by
        rw [List.concat_eq_append, ← List.cons_append, ← List.append_assoc] at heq
        exact (List.append_inj' heq rfl).1
      exact ih hfirst.of_append earlier heading bytes endianness members later heq' c hc
  | reuse _ _ _ _ ih => exact ih hfirst.of_append

end Context

end RegLayer.Classes

namespace RegLayer

open Classes

/-- **Each class once, and before it is used.**  The bodies of a rendered layer have different
names; these are the names of the components with a class from the top downwards, no more and no
fewer; a block uses no name that has not had its body; and the counts are those of the bodies and
of the components that found their class written. -/
theorem Exporter.classes_written_once {e : Exporter} {m : Model} {top : Nat} {output : String}
    {layer : Layer} (hm : m.Built) (hok : (e.render m top output).outcome = .ok layer) :
    (layer.bodies.map Body.name).Nodup ∧
      (∀ name, name ∈ layer.bodies.map Body.name ↔
        ∃ h ∈ m.classed top, (e.context m top).names.className h = name) ∧
      Context.DeclaredBeforeUse layer.bodies ∧
      layer.classes = layer.bodies.length ∧
      layer.classes + layer.reused = (m.classed top).length := by
  obtain ⟨hmap, out, hrun, hbodies, hclasses, hreused⟩ := run_of_render hok
  have hf : m.Forest := hm.forest
  have htop : top < m.size := Model.lt_size_of_isAddrmap hmap
  rw [hbodies, hclasses, hreused]
  refine ⟨hrun.nodup_names, fun name => ?_, ?_, hrun.register_size, ?_⟩
  · rw [hrun.mem_names]
    constructor
    · rintro ⟨h, hh, hb, hname⟩
      exact ⟨h, Model.mem_classed.2 ⟨(Model.mem_region_iff_mem_postorder hf htop).2 hh, hb⟩, hname⟩
    · rintro ⟨h, hh, hname⟩
      obtain ⟨hregion, hb⟩ := Model.mem_classed.1 hh
      exact ⟨h, (Model.mem_region_iff_mem_postorder hf htop).1 hregion, hb, hname⟩
  · exact hrun.declared_before_use (Model.childrenFirst_postorder hf top)
  · rw [hrun.register_size, hrun.length_add_reused]
    exact (Model.perm_classed hf htop).length_eq

/-! ## A design with shared classes -/

/-- A peripheral with a control register of two fields and an array of data registers. -/
def uart (name : String) (offset : UInt64) : Tree Node :=
  let field (name : String) (lsb width : UInt32) (onWrite : Option WriteEffect) : Tree Node :=
    .node { name := name, kind := .field ⟨lsb, width, .readWrite, none, onWrite, some 0, false⟩ } []
  .node { name := name, kind := .regfile, offset := offset, typeName := some "uart_t"
          decl := some ⟨1⟩, scope := some (.inside ⟨0⟩) }
    [.node { name := "ctrl", kind := .reg 32 32, typeName := some "ctrl_t", decl := some ⟨2⟩
             scope := some (.inside ⟨1⟩) }
        [field "en" 0 1 none, field "irq" 1 1 (some .oneClears)],
      .node { name := "data", kind := .reg 16 16, offset := 8, array := some ⟨[2, 3], 2⟩
              typeName := some "data_t", decl := some ⟨3⟩, scope := some (.inside ⟨1⟩) }
        [field "value" 0 16 none]]

/-- A memory behind the peripherals. -/
def ram : Tree Node :=
  .node { name := "ram", kind := .mem 1024 32 .readWrite, offset := 0x1000
          typeName := some "ram_t", decl := some ⟨4⟩, scope := some (.inside ⟨0⟩) } []

/-- A map with these components. -/
def soc (parts : List (Tree Node)) : Model :=
  Model.ofForest
    ⟨#["soc_t", "soc_t::uart_t", "soc_t::uart_t::ctrl_t", "soc_t::uart_t::data_t", "soc_t::ram_t"]⟩
    [.node { name := "soc", kind := .addrmap .little false, typeName := some "soc_t"
             decl := some ⟨0⟩, scope := some .root } parts]

/-- A map with two instances of one peripheral type, and a memory. -/
def twinUarts : Model :=
  soc [uart "uart0" 0, uart "uart1" 0x100, ram]

/-- An exporter with the options that nobody changed and an empty banner. -/
def plainExporter : Exporter := ⟨{}, ""⟩

theorem render_twinUarts :
    (fun layer => (layer.classes, layer.reused)) <$>
      (plainExporter.render twinUarts 0 "soc_pkg.sv").outcome = .ok (5, 3) := by
  decide +kernel

theorem built_soc (parts : List (Tree Node)) : (soc parts).Built :=
  Model.built_ofForest _ _

theorem Exporter.classes_written_once_twinUarts :
    ∃ layer, (plainExporter.render twinUarts 0 "soc_pkg.sv").outcome = .ok layer ∧
      (layer.bodies.map Body.name).Nodup ∧ Context.DeclaredBeforeUse layer.bodies ∧
      layer.bodies.length = 5 ∧ layer.classes + layer.reused = 8 := by
  obtain ⟨layer, hok, hcounts⟩ := map_eq_ok.1 render_twinUarts
  obtain ⟨hnodup, _, hbefore, hclasses, hall⟩ := classes_written_once (built_soc _) hok
  have hfive : layer.classes = 5 := congrArg Prod.fst hcounts
  have height : (twinUarts.classed 0).length = 8 := by decide +kernel
  exact ⟨layer, hok, hnodup, hbefore, hclasses ▸ hfive, height ▸ hall⟩

end RegLayer
