/-
# `RegLayer.Proofs.Classes.Endianness` — whose byte order a shared class has

The byte order of a block or memory is that of the address map around it, so it belongs to the
place of an instance and not to its declaration.  A class is written for the first component of
its name, which serves for others of its declaration only (`Exporter.exists_class`), and it has
the byte order that holds there (`Run.exists_first_body`).

    address map                                its own byte order, since maps of one declaration
                                               are alike, and alike maps have one byte order
    register file or memory whose declaration  the byte order that holds at its place
      stands in maps of one byte order
    otherwise                                  that of the first one, which may be another

The three cases are `Exporter.class_has_endianness_of_first`; that the last one happens is shown
by a memory type under two maps (`splitBus`).

Taken as given: the layer has been rendered, from a model that was built step by step, and
components of one known declaration are alike.
-/
import RegLayer.Proofs.Classes.Collision
import RegLayer.Proofs.Model.Alike

namespace RegLayer

/-! ## The byte order of a node and of a class -/

theorem Model.owner_of_isAddrmap {m : Model} {h : Nat} (hk : (m.kind h).isAddrmap = true) :
    m.owner h = some h := by
  unfold owner lineage
  rw [List.find?_cons, hk]

theorem Model.endianness_eq_of_kind_eq {m : Model} {a b : Nat}
    (ha : (m.kind a).isAddrmap = true) (heq : m.kind a = m.kind b) :
    m.endianness a = m.endianness b := by
  have hb : (m.kind b).isAddrmap = true := heq ▸ ha
  unfold endianness
  simp only [owner_of_isAddrmap ha, owner_of_isAddrmap hb, heq]

namespace Classes

/-- The byte order with which a class makes its map; registers make none. -/
def Body.endianness? : Body → Option Endianness
  | .register _ _ _ => none
  | .block _ _ endianness _ => some endianness
  | .memory _ _ endianness _ _ _ => some endianness

namespace Context

variable {ctx : Context} {done : List Nat} {out : Outcome}

theorem Describes.endianness_eq {h : Nat} {body : Body} (hd : ctx.Describes h body)
    (hk : (ctx.names.model.kind h).isReg = false) :
    body.endianness? = some (ctx.names.model.endianness h) := by
  cases hd with
  | register hreg =>
    rw [hreg] at hk
    cases hk
  | block _ _ _ => rfl
  | memory _ _ => rfl

/-- **A class is written for the first component of its name.** -/
theorem Run.exists_first_body (hrun : ctx.Run done out) {name : String} {f : Nat}
    (hf : ctx.first? done name = some f) : ∃ body ∈ out.bodies, ctx.Describes f body := by
  induction hrun with
  | start => cases hf
  | @skip done out h _ hb ih =>
    rw [first?_concat, if_neg (by simp [hb]), Option.or_none] at hf
    exact ih hf
  | @write done out h body _ hb _ hd ih =>
    rw [first?_concat] at hf
    cases hfirst : ctx.first? done name with
    | some g =>
      rw [hfirst] at hf
      obtain ⟨old, hold, hdesc⟩ := ih (hfirst.trans hf)
      exact ⟨old, List.mem_append_left _ hold, hdesc⟩
    | none =>
      rw [hfirst, Option.none_or] at hf
      by_cases hname : ctx.bears h = true ∧ ctx.names.className h = name
      · rw [if_pos hname] at hf
        obtain rfl := Option.some.inj hf
        exact ⟨body, List.mem_append_right _ List.mem_cons_self, hd⟩
      · rw [if_neg hname] at hf
        cases hf
  | @reuse done out h hrun hb hheld _ ih =>
    -- The name of `h` is held, so `h` is first of no name.
    refine ih ?_
    rw [first?_concat] at hf
    cases hfirst : ctx.first? done name with
    | some g => rwa [hfirst] at hf
    | none =>
      rw [hfirst, Option.none_or] at hf
      by_cases hname : ctx.bears h = true ∧ ctx.names.className h = name
      · rw [hrun.holder?_eq, hname.2, hfirst] at hheld
        cases hheld
      · rw [if_neg hname] at hf
        cases hf

theorem Run.eq_or_decl_eq_of_first (hrun : ctx.Run done out) {h f : Nat} (hh : h ∈ done)
    (hb : ctx.bears h = true) (hf : ctx.first? done (ctx.names.className h) = some f) :
    f = h ∨ (ctx.declOf f).isSome = true ∧ ctx.declOf f = ctx.declOf h := by
  obtain ⟨hfd, hfb, hfname⟩ := first?_eq_some hf
  by_cases heq : f = h
  · exact Or.inl heq
  · have hnone := hrun.no_clash f hfd h hh hfb hb
    have hdecl : ∃ d, ctx.declOf f = some d ∧ ctx.declOf h = some d :=
      Classical.not_not.1 fun hno => hnone ⟨heq, hfname, hno⟩
    obtain ⟨d, hfdecl, hhdecl⟩ := hdecl
    exact Or.inr ⟨by rw [hfdecl]; rfl, hfdecl.trans hhdecl.symm⟩

end Context

end Classes

open Classes

/-- Every component has one class of its name, and the class was written for the component or for
another one of its declaration. -/
theorem Exporter.exists_class {e : Exporter} {m : Model} {top : Nat} {output : String}
    {layer : Layer} (hm : m.Built) (hok : (e.render m top output).outcome = .ok layer) {n : Nat}
    (hn : n ∈ m.classed top) :
    ∃ f ∈ m.classed top,
      (f = n ∨ (m.node f).decl.isSome = true ∧ (m.node f).decl = (m.node n).decl) ∧
      ∃ body ∈ layer.bodies, (e.context m top).Describes f body ∧
        body.name = (e.context m top).names.className n ∧
        ∀ other ∈ layer.bodies, other.name = body.name → other = body := by
  obtain ⟨hmap, out, hrun, hbodies, _, _⟩ := run_of_render hok
  have hf : m.Forest := hm.forest
  have htop : top < m.size := Model.lt_size_of_isAddrmap hmap
  obtain ⟨hnd, hnb⟩ := (mem_classed_iff (e := e) hf htop n).1 hn
  cases hfirst : (e.context m top).first? (m.postorder top)
      ((e.context m top).names.className n) with
  | none => exact absurd rfl (Context.first?_eq_none.1 hfirst n hnd hnb)
  | some f =>
    obtain ⟨hfd, hfb, hfname⟩ := Context.first?_eq_some hfirst
    obtain ⟨body, hbody, hd⟩ := hrun.exists_first_body hfirst
    refine ⟨f, (mem_classed_iff (e := e) hf htop f).2 ⟨hfd, hfb⟩,
      hrun.eq_or_decl_eq_of_first hnd hnb hfirst, body, hbodies ▸ hbody, hd,
      hd.name_eq.trans hfname, ?_⟩
    intro other hother hname
    rw [hbodies] at hother
    exact List.inj_on_of_nodup_map hrun.nodup_names hother hbody hname

/-- **A shared class has the byte order of its first instance.**  Let components of one known
declaration be alike.  Then in a rendered layer every address map, register file and memory has
one class of its name, and the class makes its map with the byte order of the first component of
that name in the traversal.  This is the component's own byte order if the component is an address
map, or if all components of its declaration stand in maps of one byte order. -/
theorem Exporter.class_has_endianness_of_first {e : Exporter} {m : Model} {top : Nat}
    {output : String} {layer : Layer} (hm : m.Built)
    (hok : (e.render m top output).outcome = .ok layer)
    (hshare : ∀ a ∈ m.classed top, ∀ b ∈ m.classed top, (m.node a).decl.isSome = true →
      (m.node a).decl = (m.node b).decl → m.Alike a b) :
    ∀ n ∈ m.classed top, (m.kind n).isReg = false →
      ∃ f, (e.context m top).first? (m.postorder top) ((e.context m top).names.className n) =
          some f ∧
        (∃ body ∈ layer.bodies, body.name = (e.context m top).names.className n ∧
          (∀ other ∈ layer.bodies, other.name = body.name → other = body) ∧
          body.endianness? = some (m.endianness f)) ∧
        ((m.kind n).isAddrmap = true → m.endianness f = m.endianness n) ∧
        ((∀ g ∈ m.classed top, (m.node g).decl.isSome = true →
            (m.node g).decl = (m.node n).decl → m.endianness g = m.endianness n) →
          m.endianness f = m.endianness n) := by
  obtain ⟨hmap, out, hrun, hbodies, _, _⟩ := run_of_render hok
  have hf : m.Forest := hm.forest
  have htop : top < m.size := Model.lt_size_of_isAddrmap hmap
  intro n hn hkind
  obtain ⟨hnd, hnb⟩ := (mem_classed_iff (e := e) hf htop n).1 hn
  cases hfirst : (e.context m top).first? (m.postorder top)
      ((e.context m top).names.className n) with
  | none => exact absurd rfl (Context.first?_eq_none.1 hfirst n hnd hnb)
  | some f =>
    obtain ⟨hfd, hfb, hfname⟩ := Context.first?_eq_some hfirst
    have hfc : f ∈ m.classed top := (mem_classed_iff (e := e) hf htop f).2 ⟨hfd, hfb⟩
    have hsame := hrun.eq_or_decl_eq_of_first hnd hnb hfirst
    -- Alike components are of one kind, and the kind of an address map has its byte order in it.
    have hkinds : m.kind f = m.kind n := by
      rcases hsame with rfl | ⟨hknown, hdecl⟩
      · rfl
      · exact (hshare f hfc n hn hknown hdecl).1
    obtain ⟨body, hbody, hd⟩ := hrun.exists_first_body hfirst
    refine ⟨f, rfl, ⟨body, hbodies ▸ hbody, hd.name_eq.trans hfname, ?_, ?_⟩, ?_, ?_⟩
    · intro other hother hname
      rw [hbodies] at hother
      exact List.inj_on_of_nodup_map hrun.nodup_names hother hbody hname
    · exact hd.endianness_eq (hkinds ▸ hkind)
    · intro haddrmap
      exact Model.endianness_eq_of_kind_eq (hkinds ▸ haddrmap) hkinds
    · intro hall
      rcases hsame with rfl | ⟨hknown, hdecl⟩
      · rfl
      · exact hall f hfc hknown hdecl

/-! ## One memory type under two maps -/

/-- A memory of a type that is declared outside all maps. -/
def sharedRam : Tree Node :=
  .node { name := "ram", kind := .mem 16 32 .readWrite, typeName := some "ram_t"
          decl := some ⟨2⟩, scope := some .root } []

/-- A map with two maps of different byte orders, each with such a memory. -/
def splitBus : Model :=
  let map (name typeName : String) (decl : Nat) (offset : UInt64) (endianness : Endianness)
      (parts : List (Tree Node)) : Tree Node :=
    .node { name := name, kind := .addrmap endianness false, offset := offset
            typeName := some typeName, decl := some ⟨decl⟩, scope := some .root } parts
  Model.ofForest ⟨#["soc_t", "a_t", "ram_t", "b_t"]⟩
    [map "soc" "soc_t" 0 0 .little
      [map "a" "a_t" 1 0 .little [sharedRam], map "b" "b_t" 3 0x1000 .big [sharedRam]]]

theorem built_splitBus : splitBus.Built :=
  Model.built_ofForest _ _

theorem render_splitBus :
    (fun layer => layer.bodies.map fun body => (body.name, body.endianness?)) <$>
      (plainExporter.render splitBus 0 "soc_pkg.sv").outcome =
        .ok [("ram_t", some .little), ("a_t", some .little), ("b_t", some .big),
          ("soc_t", some .little)] := by
  decide +kernel

theorem Exporter.class_has_endianness_of_first_splitBus :
    ∃ layer, (plainExporter.render splitBus 0 "soc_pkg.sv").outcome = .ok layer ∧
      ∃ body ∈ layer.bodies, body.name = "ram_t" ∧ body.endianness? = some (splitBus.endianness 2) ∧
        splitBus.endianness 2 = .little ∧ splitBus.endianness 4 = .big := by
  obtain ⟨layer, hok, _⟩ := map_eq_ok.1 render_splitBus
  have hname : (plainExporter.context splitBus 0).names.className 4 = "ram_t" := by decide +kernel
  have hfirst : (plainExporter.context splitBus 0).first? (splitBus.postorder 0) "ram_t" =
      some 2 := by decide +kernel
  obtain ⟨f, hf, ⟨body, hbody, hbname, _, hbend⟩, _⟩ := class_has_endianness_of_first
    built_splitBus hok (by decide +kernel) 4 (by decide +kernel) (by decide +kernel)
  rw [hname] at hf hbname
  obtain rfl : f = 2 := Option.some.inj (hf.symm.trans hfirst)
  exact ⟨layer, hok, body, hbody, hbname, hbend, by decide +kernel, by decide +kernel⟩

/-- **Sharing can change the byte order**: it is not so that every class makes its map with the byte
order of each component that uses it, not even where all components of one declaration are
alike. -/
theorem Exporter.sharing_can_change_endianness :
    ¬∀ (e : Exporter) (m : Model) (top : Nat) (output : String) (layer : Layer),
      m.Built → e.options.namingStyle = .lexical →
      (∀ a, a < m.size → ∀ b, b < m.size → (m.node a).decl.isSome = true →
        (m.node a).decl = (m.node b).decl → m.Alike a b) →
      (e.render m top output).outcome = .ok layer →
      ∀ n ∈ m.classed top, (m.kind n).isReg = false → ∀ body ∈ layer.bodies,
        body.name = (e.context m top).names.className n →
        body.endianness? = some (m.endianness n) := by
  intro hall
  obtain ⟨layer, hok, hbodies⟩ := map_eq_ok.1 render_splitBus
  have hname : (plainExporter.context splitBus 0).names.className 4 = "ram_t" := by decide +kernel
  have hbig : splitBus.endianness 4 = .big := by decide +kernel
  have hram : ("ram_t", some Endianness.little) ∈
      layer.bodies.map fun body => (body.name, body.endianness?) := by
    rw [hbodies]
    exact List.mem_cons_self
  obtain ⟨body, hbody, hpair⟩ := List.mem_map.1 hram
  obtain ⟨hbname, hbend⟩ := Prod.mk.inj hpair
  have hown := hall plainExporter splitBus 0 "soc_pkg.sv" layer built_splitBus rfl
    (by decide +kernel) hok 4 (by decide +kernel) (by decide +kernel) body hbody
    (hbname.trans hname.symm)
  rw [hbend, hbig] at hown
  cases hown

end RegLayer
