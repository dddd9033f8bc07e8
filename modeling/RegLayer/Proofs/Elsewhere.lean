/-
# `RegLayer.Proofs.Elsewhere` — what is added elsewhere is not rendered

A model can grow while one of its maps is exported again and again.  `GrownBeside` is a series of
building steps of which none adds a node below the map.  Through such a series the nodes of the
map, everything above them and their children stay what they were (`Keeps`, with a lemma for
declarations and one for new nodes); the models then match where the export looks, so the layer,
the failure and the notices stay the same (`Exporter.render_of_grownBeside`).

Taken as given: the model was built step by step and holds the map.  New nodes may go anywhere
else, also just above the map or beside it.
-/
import RegLayer.Proofs.Classes.Endianness
import RegLayer.Proofs.Classes.Matching

namespace RegLayer

namespace Model

/-- The models that come out of a model by building operations none of which adds below `top`. -/
inductive GrownBeside (top : Nat) (m : Model) : Model → Prop
  | refl : GrownBeside top m m
  | declare {m' : Model} (label : String) :
      GrownBeside top m m' → GrownBeside top m (m'.declare label).2
  | addRoot {m' : Model} (n : Node) : GrownBeside top m m' → GrownBeside top m (m'.addRoot n)
  | addChild {m' : Model} {p : Nat} (n : Node) :
      GrownBeside top m m' → p < m'.size → top ∉ m'.lineage p →
      GrownBeside top m (m'.addChild p n)

/-- The nodes of the first model are in the second one, with their parents; those from `top`
downwards have no further children. -/
structure Keeps (top : Nat) (m m' : Model) : Prop where
  size_le : m.size ≤ m'.size
  node_eq : ∀ h < m.size, m'.node h = m.node h
  parent_eq : ∀ h < m.size, m'.parent h = m.parent h
  children_eq : ∀ h < m.size, top ∈ m.lineage h → m'.children h = m.children h

namespace Keeps

variable {m m' : Model} {top : Nat}

theorem refl (top : Nat) (m : Model) : Keeps top m m :=
  ⟨Nat.le_refl _, fun _ _ => rfl, fun _ _ => rfl, fun _ _ _ => rfl⟩

theorem declare (hk : Keeps top m m') (label : String) : Keeps top m (m'.declare label).2 :=
  ⟨hk.size_le, hk.node_eq, hk.parent_eq, hk.children_eq⟩

theorem lineage_eq (hk : Keeps top m m') {h : Nat} (hh : h < m.size) :
    m'.lineage h = m.lineage h :=
  congrArg (h :: ·) (ancestors_congr fun b hb =>
    hk.parent_eq b (Nat.lt_of_le_of_lt (le_of_mem_lineage hb) hh))

theorem oneMore {m'' : Model} {under : Option Nat} {n : Node} (hk : Keeps top m m')
    (hmore : OneMore m' under n m'') (hbeside : ∀ p ∈ under, top ∉ m'.lineage p) :
    Keeps top m m'' where
  size_le := hmore.size_eq ▸ Nat.le_succ_of_le hk.size_le
  node_eq h hh :=
    (hmore.node_eq h (Nat.lt_of_lt_of_le hh hk.size_le)).trans (hk.node_eq h hh)
  parent_eq h hh :=
    (hmore.parent_eq h (Nat.lt_of_lt_of_le hh hk.size_le)).trans (hk.parent_eq h hh)
  children_eq h hh habove := by
    -- The new node stands below none of the nodes from `top` downwards.
    have hne : some h ≠ under := by
      rintro rfl
      exact hbeside h rfl (hk.lineage_eq hh ▸ habove)
    rw [hmore.children_eq h (Nat.lt_of_lt_of_le hh hk.size_le), if_neg hne,
      hk.children_eq h hh habove]

theorem matches_id (hk : Keeps top m m') (hf : Forest m) (htop : top < m.size) :
    Matches id m m' top := by
  have hregion : ∀ h ∈ m.postorder top, h < m.size ∧ top ∈ m.lineage h :=
    fun h hh => mem_region.1 ((mem_region_iff_mem_postorder hf htop).2 hh)
  have hseen : ∀ a, m.Seen top a → a < m.size := by
    rintro a ⟨h, hh, ha⟩
    exact Nat.lt_of_le_of_lt (le_of_mem_lineage ha) (hregion h hh).1
  exact
    { node_eq := fun a ha => hk.node_eq a (hseen a ha)
      parent_eq := fun a ha => hk.parent_eq a (hseen a ha)
      children_eq := fun h hh => hk.children_eq h (hregion h hh).1 (hregion h hh).2 }

end Keeps

theorem GrownBeside.keeps {m m' : Model} {top : Nat} (hg : GrownBeside top m m') :
    Keeps top m m' := by
  induction hg with
  | refl => exact Keeps.refl top m
  | declare label _ ih => exact ih.declare label
  | @addRoot m' n _ ih =>
    have hmore : OneMore m' none n (m'.addRoot n) := oneMore_add (by simp) n
    exact ih.oneMore hmore fun _ hu => nomatch hu
  | @addChild m' p n _ hp hbeside ih =>
    have hmore : OneMore m' (some p) n (m'.addChild p n) :=
      oneMore_add (fun q hq => Option.some.inj hq ▸ hp) n
    exact ih.oneMore hmore fun q hq => Option.some.inj hq ▸ hbeside

end Model

/-- **Rendering a map does not depend on the rest of the model**: after any further declarations,
top-level nodes and nodes that are not added below the top, rendering leaves the same notices and
ends in the same layer or the same failure. -/
theorem Exporter.render_of_grownBeside (e : Exporter) {m m' : Model} {top : Nat} (hm : m.Built)
    (htop : top < m.size) (hg : m.GrownBeside top m') (output : String) :
    e.render m' top output = e.render m top output := by
  have hid : Layer.redescribe id = id := funext Layer.redescribe_id
  have hrender := (hg.keeps.matches_id hm.forest htop).redescribe_render e output
  rwa [hid, id_map, id_map] at hrender

/-- Two maps below one, of which the second and the one above get further components; the first
one stays as it is. -/
def grownSplitBus : Model :=
  (((splitBus.declare "spare_t").2.addChild 3 { name := "spare", kind := .reg 64 64 }).addChild 0
    { name := "a", kind := .regfile, typeName := some "spare_t", decl := some ⟨4⟩ }).addRoot
      { name := "soc", kind := .addrmap .big true }

theorem Exporter.render_of_grownBeside_splitBus :
    (fun layer => (layer.classes, layer.reused)) <$>
        (plainExporter.render splitBus 1 "a_pkg.sv").outcome = .ok (2, 0) ∧
      plainExporter.render grownSplitBus 1 "a_pkg.sv" =
        plainExporter.render splitBus 1 "a_pkg.sv" ∧
      grownSplitBus.size = 8 := by
  have hgrown : splitBus.GrownBeside 1 grownSplitBus :=
    .addRoot _ (.addChild _ (.addChild _ (.declare "spare_t" .refl) (by decide +kernel)
      (by decide +kernel)) (by decide +kernel) (by decide +kernel))
  refine ⟨by decide +kernel, ?_, by decide +kernel⟩
  exact plainExporter.render_of_grownBeside built_splitBus (by decide +kernel) hgrown _

end RegLayer
