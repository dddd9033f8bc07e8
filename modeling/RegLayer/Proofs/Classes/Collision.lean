/-
# `RegLayer.Proofs.Classes.Collision` — when class names collide

Two components *clash* if they have one class name and not one known declaration.  The register
compares a component with the first one that took the name, and with no other.  Still the outcome
depends on pairs of components only, in whatever order they come: a run that goes through leaves
no two components that clash (`Run.no_clash`), and a component at which a run stops for its name
clashes with one before it (`exists_clash_of_taken`).

So rendering is refused for a name exactly if two components of the region clash, and otherwise it
ends with as many classes as there are names (`Exporter.collisions_detected_exactly`).  Reordering
siblings changes neither the pairs nor the counts (`Model.Rearranged.verdict_eq`).

Taken as given: the model was built step by step, the top is an address map, and banner and
container can be made; and, for the outcome to be settled by names alone, that no number leaves
its word (`Model.Fits`).
-/
import Mathlib.Data.List.Dedup
import RegLayer.Proofs.Classes.Fits
import RegLayer.Proofs.Classes.Once
import RegLayer.Proofs.Model.Rearranged

namespace RegLayer

namespace Classes.Context

variable {ctx : Context} {done : List Nat} {out : Outcome}

/-- Two components want one class name and are not known to come from one declaration. -/
def Clash (ctx : Context) (a b : Nat) : Prop :=
  a ≠ b ∧ ctx.names.className a = ctx.names.className b ∧
    ¬∃ d, ctx.declOf a = some d ∧ ctx.declOf b = some d

theorem Clash.symm {a b : Nat} (h : ctx.Clash a b) : ctx.Clash b a := by
  obtain ⟨hne, hname, hdecl⟩ := h
  exact ⟨hne.symm, hname.symm, fun ⟨d, hb, ha⟩ => hdecl ⟨d, ha, hb⟩⟩

/-! ## Runs without and with a clash -/

theorem not_clash_of_free {h a : Nat} (hnone : ctx.first? done (ctx.names.className h) = none)
    (ha : a ∈ done) (hab : ctx.bears a = true) : ¬ctx.Clash a h :=
  fun hclash => first?_eq_none.1 hnone a ha hab hclash.2.1

theorem not_clash_of_held {h f a : Nat} {d : DeclId}
    (ih : ∀ a ∈ done, ∀ b ∈ done, ctx.bears a = true → ctx.bears b = true → ¬ctx.Clash a b)
    (hf : ctx.first? done (ctx.names.className h) = some f) (hfd : ctx.declOf f = some d)
    (hd : ctx.declOf h = some d) (ha : a ∈ done) (hab : ctx.bears a = true) :
    ¬ctx.Clash a h := by
  rintro ⟨_, hname, hdecl⟩
  obtain ⟨hfdone, hfb, hfname⟩ := first?_eq_some hf
  refine ih a ha f hfdone hab hfb ⟨?_, hname.trans hfname.symm, ?_⟩
  · rintro rfl
    exact hdecl ⟨d, hfd, hd⟩
  · rintro ⟨d', had, hfd'⟩
    obtain rfl := Option.some.inj (hfd.symm.trans hfd')
    exact hdecl ⟨d, had, hd⟩

theorem no_clash_concat {h : Nat}
    (ih : ∀ a ∈ done, ∀ b ∈ done, ctx.bears a = true → ctx.bears b = true → ¬ctx.Clash a b)
    (hlast : ∀ a ∈ done, ctx.bears a = true → ¬ctx.Clash a h) :
    ∀ a ∈ done ++ [h], ∀ b ∈ done ++ [h],
      ctx.bears a = true → ctx.bears b = true → ¬ctx.Clash a b := by
  intro a ha b hb hab hbb hclash
  rcases List.mem_append.1 ha with had | hah
  · rcases List.mem_append.1 hb with hbd | hbh
    · exact ih a had b hbd hab hbb hclash
    · exact hlast a had hab (List.mem_singleton.1 hbh ▸ hclash)
  · have hclash' : ctx.Clash h b := List.mem_singleton.1 hah ▸ hclash
    rcases List.mem_append.1 hb with hbd | hbh
    · exact hlast b hbd hbb hclash'.symm
    · exact hclash'.1 (List.mem_singleton.1 hbh).symm

/-- **A run that goes through leaves no clash behind.** -/
theorem Run.no_clash (hrun : ctx.Run done out) :
    ∀ a ∈ done, ∀ b ∈ done, ctx.bears a = true → ctx.bears b = true → ¬ctx.Clash a b := by
  induction hrun with
  | start =>
    intro a ha
    cases ha
  | @skip done out h _ hb ih =>
    intro a ha b hbm hab hbb
    -- The component passed over gets no class, so it is neither of the two.
    have hin : ∀ {c : Nat}, c ∈ done ++ [h] → ctx.bears c = true → c ∈ done := by
      intro c hc hcb
      rcases List.mem_append.1 hc with hc | hc
      · exact hc
      · obtain rfl := List.mem_singleton.1 hc
        rw [hb] at hcb
        cases hcb
    exact ih a (hin ha hab) b (hin hbm hbb) hab hbb
  | @write done out h body hrun _ hfree _ ih =>
    rw [hrun.holder?_eq] at hfree
    have hnone := Option.map_eq_none_iff.1 hfree
    exact no_clash_concat ih fun a ha hab => not_clash_of_free hnone ha hab
  | @reuse done out h hrun _ hheld hknown ih =>
    rw [hrun.holder?_eq] at hheld
    obtain ⟨f, hf, hdecl⟩ := Option.map_eq_some_iff.1 hheld
    obtain ⟨d, hd⟩ := Option.isSome_iff_exists.1 hknown
    exact no_clash_concat ih fun a ha hab => not_clash_of_held ih hf (hdecl.trans hd) hd ha hab

/-- **A run that stops for a name has found a clash**, with the component that took the name. -/
theorem exists_clash_of_taken {h : Nat} {first : Option DeclId} (hrun : ctx.Run done out)
    (hnew : h ∉ done) (hheld : out.register.holder? (ctx.names.className h) = some first)
    (hother : ¬(first.isSome = true ∧ first = ctx.declOf h)) :
    ∃ f ∈ done, ctx.bears f = true ∧ ctx.Clash f h := by
  rw [hrun.holder?_eq] at hheld
  obtain ⟨f, hf, hdecl⟩ := Option.map_eq_some_iff.1 hheld
  obtain ⟨hfdone, hfb, hfname⟩ := first?_eq_some hf
  refine ⟨f, hfdone, hfb, ?_, hfname, ?_⟩
  · rintro rfl
    exact hnew hfdone
  · rintro ⟨d, hfd, hhd⟩
    have hfirst : first = some d := hdecl.symm.trans hfd
    exact hother ⟨Option.isSome_iff_exists.2 ⟨d, hfirst⟩, hfirst.trans hhd.symm⟩

theorem Run.length_bodies (hrun : ctx.Run done out) {l : List Nat}
    (hl : ∀ h, h ∈ l ↔ h ∈ done ∧ ctx.bears h = true) :
    out.bodies.length = (l.map ctx.names.className).dedup.length := by
  have hperm : (out.bodies.map Body.name).Perm (l.map ctx.names.className).dedup := by
    refine (List.perm_ext_iff_of_nodup hrun.nodup_names (List.nodup_dedup _)).2 fun name => ?_
    rw [hrun.mem_names, List.mem_dedup, List.mem_map]
    constructor
    · rintro ⟨h, hh, hb, hname⟩
      exact ⟨h, (hl h).2 ⟨hh, hb⟩, hname⟩
    · rintro ⟨h, hh, hname⟩
      exact ⟨h, ((hl h).1 hh).1, ((hl h).1 hh).2, hname⟩
  rw [← hperm.length_eq, List.length_map]

end Classes.Context

open Classes

namespace Exporter

/-! ## What is seen of an outcome -/

/-- The names of the classes that an export has to provide, one for each component. -/
def classNames (e : Exporter) (m : Model) (top : Nat) : List String :=
  (m.classed top).map (e.context m top).names.className

/-- Two components of the region clash. -/
def Collides (e : Exporter) (m : Model) (top : Nat) : Prop :=
  ∃ a ∈ m.classed top, ∃ b ∈ m.classed top, (e.context m top).Clash a b

/-- The two counts of a layer, or the kind of the fault; nothing is said of an abort. -/
def verdict : Except Failure Layer → Except (Option FaultKind) (Nat × Nat)
  | .ok layer => .ok (layer.classes, layer.reused)
  | .error (.fault f) => .error (some f.kind)
  | .error (.abort _) => .error none

/-- The counts that an export without a clash comes to. -/
def expectedCounts (e : Exporter) (m : Model) (top : Nat) : Nat × Nat :=
  ((e.classNames m top).dedup.length,
    (m.classed top).length - (e.classNames m top).dedup.length)

theorem exists_layer_of_verdict {r : Except Failure Layer} {counts : Nat × Nat}
    (h : verdict r = .ok counts) :
    ∃ layer, r = .ok layer ∧ (layer.classes, layer.reused) = counts := by
  match r, h with
  | .ok layer, h => exact ⟨layer, rfl, Except.ok.inj h⟩

section Outcome

variable {e : Exporter} {m : Model} {top : Nat} {output : String}

theorem mem_classed_iff (hf : m.Forest) (htop : top < m.size) (h : Nat) :
    h ∈ m.classed top ↔ h ∈ m.postorder top ∧ (e.context m top).bears h = true := by
  rw [Model.mem_classed, Model.mem_region_iff_mem_postorder hf htop]
  exact Iff.rfl

theorem describe_cases (hf : m.Forest) (htop : top < m.size) :
    (∃ out, ((e.context m top).describe .empty (m.postorder top)).outcome = .ok out ∧
      (out.register.size, out.reused) = e.expectedCounts m top ∧ ¬e.Collides m top) ∨
    (∃ name, ((e.context m top).describe .empty (m.postorder top)).outcome =
        .error (.fault (.classNameTaken name)) ∧ e.Collides m top) ∨
    (((e.context m top).describe .empty (m.postorder top)).outcome = .error (.abort .overflow) ∧
      ¬m.Fits top) := by
  cases hout : ((e.context m top).describe .empty (m.postorder top)).outcome with
  | ok out =>
    have hrun := Context.run_of_describe _ hout
    have hlen : out.bodies.length = (e.classNames m top).dedup.length :=
      hrun.length_bodies (mem_classed_iff hf htop)
    have hall : out.bodies.length + out.reused = (m.classed top).length :=
      hrun.length_add_reused.trans (Model.perm_classed hf htop).length_eq
    have hcounts : (out.register.size, out.reused) = e.expectedCounts m top := by
      unfold expectedCounts
      rw [hrun.register_size, ← hlen, ← hall, Nat.add_sub_cancel_left]
    refine Or.inl ⟨out, rfl, hcounts, ?_⟩
    rintro ⟨a, ha, b, hb, hclash⟩
    obtain ⟨had, hab⟩ := (mem_classed_iff (e := e) hf htop a).1 ha
    obtain ⟨hbd, hbb⟩ := (mem_classed_iff (e := e) hf htop b).1 hb
    exact hrun.no_clash a had b hbd hab hbb hclash
  | error failure =>
    obtain ⟨pre, h, post, mid, hpost, hrun, hstop⟩ := Context.stop_of_describe _ hout
    have hin : ∀ {g : Nat}, g ∈ pre ++ [h] → g ∈ m.postorder top := by
      intro g hg
      rw [hpost, List.append_cons]
      exact List.mem_append_left post hg
    have hh : h ∈ m.postorder top := hin (List.mem_append_right _ List.mem_cons_self)
    cases hstop with
    | @taken first hb hheld hother =>
      -- A traversal meets no node twice, so the component that took the name is another one.
      have hnew : h ∉ pre := by
        have hnd : (pre ++ h :: post).Nodup := hpost ▸ Model.nodup_postorder hf top
        exact fun hp => (List.nodup_append'.1 hnd).2.2 hp List.mem_cons_self
      obtain ⟨f, hfp, hfb, hclash⟩ := Context.exists_clash_of_taken hrun hnew hheld hother
      refine Or.inr (Or.inl ⟨_, rfl, f, ?_, h, ?_, hclash⟩)
      · exact (mem_classed_iff hf htop f).2 ⟨hin (List.mem_append_left _ hfp), hfb⟩
      · exact (mem_classed_iff hf htop h).2 ⟨hh, hb⟩
    | body hb _ herr =>
      obtain rfl := Context.onlyOverflow_body? _ h _ herr
      refine Or.inr (Or.inr ⟨rfl, fun hfits => ?_⟩)
      obtain ⟨body, hok⟩ := exists_body?_of_fits (e := e) hf htop hfits
        ((Model.mem_region_iff_mem_postorder hf htop).2 hh)
      rw [hok] at herr
      cases herr

section Ready

variable (hm : m.Built) (htop : (m.kind top).isAddrmap = true)
variable (hbanner : ∃ banner, e.fillBanner m top output = .ok banner)
variable (hcontainer : ∃ container,
  Container.ofPath e.options.containerStyle output = .ok container)

include hm htop hbanner hcontainer

theorem verdict_cases :
    (verdict (e.render m top output).outcome = .ok (e.expectedCounts m top) ∧
      ¬e.Collides m top) ∨
    (verdict (e.render m top output).outcome = .error (some .namespaceCollision) ∧
      e.Collides m top) ∨
    ((e.render m top output).outcome = .error (.abort .overflow) ∧ ¬m.Fits top) := by
  obtain ⟨banner, hbanner⟩ := hbanner
  obtain ⟨container, hcontainer⟩ := hcontainer
  rw [outcome_render_of_fits htop hbanner hcontainer]
  rcases describe_cases (e := e) hm.forest (Model.lt_size_of_isAddrmap htop) with
    ⟨out, hout, hcounts, hnone⟩ | ⟨name, hout, hsome⟩ | ⟨hout, hfits⟩
  · rw [hout, ← hcounts]
    exact Or.inl ⟨rfl, hnone⟩
  · rw [hout]
    exact Or.inr (Or.inl ⟨rfl, hsome⟩)
  · rw [hout]
    exact Or.inr (Or.inr ⟨rfl, hfits⟩)

theorem verdict_of_fits (hfits : m.Fits top) :
    (verdict (e.render m top output).outcome = .ok (e.expectedCounts m top) ∧
      ¬e.Collides m top) ∨
    (verdict (e.render m top output).outcome = .error (some .namespaceCollision) ∧
      e.Collides m top) := by
  rcases verdict_cases hm htop hbanner hcontainer with hok | hfail | ⟨_, hno⟩
  · exact Or.inl hok
  · exact Or.inr hfail
  · exact absurd hfits hno

end Ready

end Outcome

end Exporter

/-! ## Siblings in another order -/

namespace Model.Rearranged

variable {m m' : Model} {σ : Nat → Nat} {top : Nat} {e : Exporter} (hr : m.Rearranged σ m')

include hr

theorem fillBanner (htop : top < m.size) (output : String) :
    e.fillBanner m' (σ top) output = e.fillBanner m top output := by
  unfold Exporter.fillBanner
  rw [hr.name htop]

theorem mem_classed_map (htop : top < m.size) {g : Nat} :
    g ∈ m'.classed (σ top) ↔ ∃ h ∈ m.classed top, σ h = g := by
  rw [(hr.perm_classed htop).mem_iff, List.mem_map]

theorem fits (htop : top < m.size) (hfits : m.Fits top) : m'.Fits (σ top) where
  widths := by
    intro g hg
    obtain ⟨h, hh, rfl⟩ := (hr.mem_classed_map htop).1 hg
    rw [hr.kind (lt_size_of_mem_classed hh)]
    exact hfits.widths h hh
  arrays := by
    intro g hg hne
    obtain ⟨h, hh, rfl⟩ := (hr.mem_classed_map htop).1 hg
    rw [hr.node h (lt_size_of_mem_classed hh)]
    exact hfits.arrays h hh fun heq => hne (congrArg σ heq)

theorem className_context {h : Nat} (htop : top < m.size) (hh : h < m.size) :
    (e.context m' (σ top)).names.className (σ h) = (e.context m top).names.className h :=
  hr.className htop hh e.options.namingStyle e.options.upperCaseNames

theorem perm_classNames (htop : top < m.size) :
    (e.classNames m' (σ top)).Perm (e.classNames m top) := by
  have hsame : ((m.classed top).map σ).map (e.context m' (σ top)).names.className =
      e.classNames m top := by
    rw [List.map_map]
    exact List.map_congr_left fun h hh =>
      hr.className_context htop (lt_size_of_mem_classed hh)
  exact hsame ▸ (hr.perm_classed htop).map _

theorem expectedCounts (htop : top < m.size) :
    e.expectedCounts m' (σ top) = e.expectedCounts m top := by
  unfold Exporter.expectedCounts
  rw [(hr.perm_classNames htop).dedup.length_eq, (hr.perm_classed htop).length_eq,
    List.length_map]

theorem clash_iff (htop : top < m.size) {a b : Nat} (ha : a < m.size) (hb : b < m.size) :
    (e.context m' (σ top)).Clash (σ a) (σ b) ↔ (e.context m top).Clash a b := by
  have hdecl : ∀ {h : Nat}, h < m.size →
      (e.context m' (σ top)).declOf (σ h) = (e.context m top).declOf h :=
    fun hh => congrArg Node.decl (hr.node _ hh)
  have hne : σ a ≠ σ b ↔ a ≠ b :=
    ⟨fun h heq => h (congrArg σ heq), fun h heq => h (hr.injective a ha b hb heq)⟩
  unfold Classes.Context.Clash
  rw [hne, hr.className_context htop ha, hr.className_context htop hb, hdecl ha, hdecl hb]

theorem collides_iff (htop : top < m.size) : e.Collides m' (σ top) ↔ e.Collides m top := by
  constructor
  · rintro ⟨a', ha', b', hb', hclash⟩
    obtain ⟨a, ha, rfl⟩ := (hr.mem_classed_map htop).1 ha'
    obtain ⟨b, hb, rfl⟩ := (hr.mem_classed_map htop).1 hb'
    have hiff := hr.clash_iff (e := e) htop (lt_size_of_mem_classed ha) (lt_size_of_mem_classed hb)
    exact ⟨a, ha, b, hb, hiff.1 hclash⟩
  · rintro ⟨a, ha, b, hb, hclash⟩
    have hiff := hr.clash_iff (e := e) htop (lt_size_of_mem_classed ha) (lt_size_of_mem_classed hb)
    exact ⟨σ a, (hr.mem_classed_map htop).2 ⟨a, ha, rfl⟩, σ b,
      (hr.mem_classed_map htop).2 ⟨b, hb, rfl⟩, hiff.2 hclash⟩

/-- **What is seen of a rendering does not depend on the order of siblings.** -/
theorem verdict_eq {output : String} (hm : m.Built) (hm' : m'.Built)
    (htop : (m.kind top).isAddrmap = true)
    (hbanner : ∃ banner, e.fillBanner m top output = .ok banner)
    (hcontainer : ∃ container, Container.ofPath e.options.containerStyle output = .ok container)
    (hfits : m.Fits top) :
    Exporter.verdict (e.render m' (σ top) output).outcome =
      Exporter.verdict (e.render m top output).outcome := by
  have hsize : top < m.size := lt_size_of_isAddrmap htop
  have htop' : (m'.kind (σ top)).isAddrmap = true := by
    rw [hr.kind hsize]
    exact htop
  have hbanner' : ∃ banner, e.fillBanner m' (σ top) output = .ok banner := by
    rw [hr.fillBanner hsize]
    exact hbanner
  have hcases' := Exporter.verdict_of_fits hm' htop' hbanner' hcontainer (hr.fits hsize hfits)
  rw [hr.collides_iff hsize, hr.expectedCounts hsize] at hcases'
  rcases Exporter.verdict_of_fits hm htop hbanner hcontainer hfits with
    ⟨hok, hnone⟩ | ⟨hfail, hsome⟩
  · rcases hcases' with ⟨hok', _⟩ | ⟨_, hsome⟩
    · exact hok'.trans hok.symm
    · exact absurd hsome hnone
  · rcases hcases' with ⟨_, hnone⟩ | ⟨hfail', _⟩
    · exact absurd hsome hnone
    · exact hfail'.trans hfail.symm

end Model.Rearranged

/-- **Collisions are found exactly.**  Let the banner and the container be there.  If every number
of the region fits, none leaves its word; and as long as none does, rendering refuses a class name
if and only if two components of the region clash, and otherwise it gives a layer with one class
for each name and one reuse for each further component.  So neither the refusal nor the counts
depend on the order of siblings. -/
theorem Exporter.collisions_detected_exactly {e : Exporter} {m : Model} {top : Nat}
    {output : String} (hm : m.Built) (htop : (m.kind top).isAddrmap = true)
    (hbanner : ∃ banner, e.fillBanner m top output = .ok banner)
    (hcontainer : ∃ container, Container.ofPath e.options.containerStyle output = .ok container) :
    (m.Fits top → (e.render m top output).outcome ≠ .error (.abort .overflow)) ∧
    ((e.render m top output).outcome ≠ .error (.abort .overflow) →
      (verdict (e.render m top output).outcome = .error (some .namespaceCollision) ↔
        e.Collides m top) ∧
      (¬e.Collides m top → ∃ layer, (e.render m top output).outcome = .ok layer ∧
        layer.classes = (e.classNames m top).dedup.length ∧
        layer.classes + layer.reused = (m.classed top).length)) ∧
    (m.Fits top → ∀ σ m', m'.Built → m.Rearranged σ m' →
      verdict (e.render m' (σ top) output).outcome = verdict (e.render m top output).outcome) := by
  have hcases := verdict_cases hm htop hbanner hcontainer
  refine ⟨fun hfits hover => ?_, fun hover => ⟨?_, fun hnone => ?_⟩, fun hfits σ m' hm' hr => ?_⟩
  · rw [hover] at hcases
    rcases hcases with ⟨hok, _⟩ | ⟨hfail, _⟩ | ⟨_, hno⟩
    · cases hok
    · cases hfail
    · exact hno hfits
  · rcases hcases with ⟨hok, hnone⟩ | ⟨hfail, hsome⟩ | ⟨hover', _⟩
    · rw [hok]
      exact ⟨fun h => (nomatch h), fun h => absurd h hnone⟩
    · exact ⟨fun _ => hsome, fun _ => hfail⟩
    · exact absurd hover' hover
  · rcases hcases with ⟨hok, _⟩ | ⟨_, hsome⟩ | ⟨hover', _⟩
    · obtain ⟨layer, hlayer, hcounts⟩ := exists_layer_of_verdict hok
      have hle : (e.classNames m top).dedup.length ≤ (m.classed top).length := by
        have hsub := (List.dedup_sublist (e.classNames m top)).length_le
        rwa [classNames, List.length_map] at hsub
      have hclasses : layer.classes = (e.classNames m top).dedup.length :=
        congrArg Prod.fst hcounts
      have hreused : layer.reused = (m.classed top).length - (e.classNames m top).dedup.length :=
        congrArg Prod.snd hcounts
      refine ⟨layer, hlayer, hclasses, ?_⟩
      rw [hclasses, hreused, Nat.add_sub_cancel' hle]
    · exact absurd hsome hnone
    · exact absurd hover' hover
  · exact hr.verdict_eq hm hm' htop hbanner hcontainer hfits

/-! ## Peripherals in two orders -/

/-- The design of `twinUarts` with the parts of the map the other way round. -/
def mirroredUarts : Model :=
  soc [ram, uart "uart1" 0x100, uart "uart0" 0]

/-- Where the mirrored design has the nodes of `twinUarts`. -/
def mirror (h : Nat) : Nat :=
  if h = 0 then 0 else if h < 7 then h + 7 else if h < 13 then h - 5 else 1

theorem rearranged_mirror : twinUarts.Rearranged mirror mirroredUarts := by
  decide +kernel

/-- One peripheral, and a register file with its type name whose declaration is not known. -/
def strayUarts : Model :=
  soc [uart "uart0" 0,
    .node { name := "stray", kind := .regfile, offset := 0x200, typeName := some "uart_t"
            scope := some (.inside ⟨0⟩) } []]

/-- The order of the peripherals does not matter, and the stray register file is found out. -/
theorem Exporter.collisions_detected_exactly_uarts :
    ¬plainExporter.Collides twinUarts 0 ∧
      verdict (plainExporter.render mirroredUarts 0 "soc_pkg.sv").outcome = .ok (5, 3) ∧
      plainExporter.Collides strayUarts 0 := by
  have hcontainer : ∃ container, Container.ofPath plainExporter.options.containerStyle
      "soc_pkg.sv" = .ok container := ⟨.package "soc_pkg", by decide +kernel⟩
  have hok : verdict (plainExporter.render twinUarts 0 "soc_pkg.sv").outcome = .ok (5, 3) := by
    decide +kernel
  have hfail : verdict (plainExporter.render strayUarts 0 "soc_pkg.sv").outcome =
      .error (some .namespaceCollision) := by
    decide +kernel
  have hall : twinUarts.Fits 0 := by decide +kernel
  have hstray : strayUarts.Fits 0 := by decide +kernel
  obtain ⟨hfits, hexact, horder⟩ := @collisions_detected_exactly plainExporter twinUarts 0
    "soc_pkg.sv" (built_soc _) (by decide +kernel) ⟨"", by decide +kernel⟩ hcontainer
  obtain ⟨hfits', hexact', _⟩ := @collisions_detected_exactly plainExporter strayUarts 0
    "soc_pkg.sv" (built_soc _) (by decide +kernel) ⟨"", by decide +kernel⟩ hcontainer
  refine ⟨fun hcollides => ?_, ?_, (hexact' (hfits' hstray)).1.1 hfail⟩
  · rw [(hexact (hfits hall)).1.2 hcollides] at hok
    cases hok
  · exact (horder hall mirror mirroredUarts (built_soc _) rearranged_mirror).trans hok

end RegLayer
