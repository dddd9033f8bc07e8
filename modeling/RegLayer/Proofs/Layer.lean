/-
# `RegLayer.Proofs.Layer` — rendering is describing

Rendering puts a banner and a container around the classes of a traversal.  When it succeeds, its
bodies and counts are those of a run over the traversal (`run_of_render`); and where the banner
and the container are there, nothing but the classes decides whether it succeeds
(`outcome_render_of_fits`).

So results about the classes of a layer are results about runs, and this module is the only one
that looks into `Exporter.render`.  `withLayer` is how the witnesses of the results are written: a
property of the layer that a design is rendered to, as something that can be computed.
-/
import RegLayer.Layer
import RegLayer.Proofs.Classes.Run

namespace RegLayer.Exporter

open Classes

variable (e : Exporter) (m : Model) (top : Nat) (output : String)

/-- The layer around the classes that were described. -/
def wrap (banner : String) (container : Container) (out : Context.Outcome) : Layer where
  banner := banner
  container := container
  style := e.options.codeStyle
  bodies := out.bodies
  classes := out.register.size
  reused := out.reused

theorem outcome_render :
    (e.render m top output).outcome = do
      (checkTop m top).outcome
      let banner ← e.fillBanner m top output
      let container ← Container.ofPath e.options.containerStyle output
      let out ← ((e.context m top).describe .empty (m.postorder top)).outcome
      return e.wrap banner container out := by
  unfold render
  simp only [Report.outcome_bind]
  rfl

variable {e m top output}

theorem isAddrmap_of_checkTop {u : Unit} (h : (checkTop m top).outcome = .ok u) :
    (m.kind top).isAddrmap = true := by
  unfold checkTop at h
  cases hk : m.kind top with
  | addrmap endianness bridge => rfl
  | regfile => rw [hk] at h; cases h
  | reg width accessWidth => rw [hk] at h; cases h
  | mem entries width policy => rw [hk] at h; cases h
  | field spec => rw [hk] at h; cases h
  | signal => rw [hk] at h; cases h

theorem checkTop_of_isAddrmap (hk : (m.kind top).isAddrmap = true) :
    (checkTop m top).outcome = .ok () := by
  unfold checkTop
  cases h : m.kind top with
  | addrmap endianness bridge => cases bridge <;> rfl
  | regfile => rw [h] at hk; cases hk
  | reg width accessWidth => rw [h] at hk; cases hk
  | mem entries width policy => rw [h] at hk; cases hk
  | field spec => rw [h] at hk; cases hk
  | signal => rw [h] at hk; cases hk

/-- **A rendered layer comes from a run** over the traversal from its top, an address map. -/
theorem run_of_render {layer : Layer} (hok : (e.render m top output).outcome = .ok layer) :
    (m.kind top).isAddrmap = true ∧
      ∃ out, (e.context m top).Run (m.postorder top) out ∧ layer.bodies = out.bodies ∧
        layer.classes = out.register.size ∧ layer.reused = out.reused := by
  rw [outcome_render] at hok
  obtain ⟨u, htop, hok⟩ := bind_eq_ok.1 hok
  obtain ⟨banner, _, hok⟩ := bind_eq_ok.1 hok
  obtain ⟨container, _, hok⟩ := bind_eq_ok.1 hok
  obtain ⟨out, hout, hok⟩ := bind_eq_ok.1 hok
  obtain rfl := Except.ok.inj hok
  exact ⟨isAddrmap_of_checkTop htop, out, Context.run_of_describe _ hout, rfl, rfl, rfl⟩

/-- A design that may not be there, with its layer. -/
def withLayer (e : Exporter) (design : Except Failure Model) (top : Nat) (output : String) :
    Except Failure (Model × Layer) := do
  let m ← design
  let layer ← (e.render m top output).outcome
  return (m, layer)

theorem withLayer_eq_ok {design : Except Failure Model} {layer : Layer} :
    e.withLayer design top output = .ok (m, layer) ↔
      design = .ok m ∧ (e.render m top output).outcome = .ok layer := by
  constructor
  · intro h
    obtain ⟨m', hdesign, h⟩ := bind_eq_ok.1 h
    obtain ⟨layer', hrender, h⟩ := bind_eq_ok.1 h
    cases h
    exact ⟨hdesign, hrender⟩
  · rintro ⟨hdesign, hrender⟩
    exact bind_eq_ok.2 ⟨m, hdesign, bind_eq_ok.2 ⟨layer, hrender, rfl⟩⟩

/-- Below an address map, with the banner and the container there, the classes decide. -/
theorem outcome_render_of_fits {banner : String} {container : Container}
    (htop : (m.kind top).isAddrmap = true) (hbanner : e.fillBanner m top output = .ok banner)
    (hcontainer : Container.ofPath e.options.containerStyle output = .ok container) :
    (e.render m top output).outcome =
      e.wrap banner container <$>
        ((e.context m top).describe .empty (m.postorder top)).outcome := by
  rw [outcome_render, checkTop_of_isAddrmap htop, hbanner, hcontainer]
  cases ((e.context m top).describe .empty (m.postorder top)).outcome <;> rfl

end RegLayer.Exporter
