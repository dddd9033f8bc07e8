/-
# `RegLayer.Proofs.Model.Rearranged` — the same trees in another order

The handles of a model number its nodes in the order in which they were added, and that order is
also the order of siblings.  A model that holds the same trees with siblings in another order is a
renumbering of the first (`Rearranged`): the nodes correspond one to one, with their parents, and
what a node is does not change.

Whatever is computed from a node and what is above it does not notice: paths, class names, and the
components with a class in a region, up to their order (`perm_classed`).  What is computed from
the order of siblings, such as which of two components comes first, may well change.
-/
import RegLayer.Naming
import RegLayer.Proofs.Model.Region

namespace RegLayer

namespace Model

/-- The second model holds the nodes of the first under new handles, each below the same node. -/
structure Rearranged (m : Model) (σ : Nat → Nat) (m' : Model) : Prop where
  lt_size : ∀ h, h < m.size → σ h < m'.size
  injective : ∀ a, a < m.size → ∀ b, b < m.size → σ a = σ b → a = b
  onto : ∀ g, g < m'.size → ∃ h, h < m.size ∧ σ h = g
  node : ∀ h, h < m.size → m'.node (σ h) = m.node h
  parent : ∀ h, h < m.size → m'.parent (σ h) = (m.parent h).map σ

instance (m : Model) (σ : Nat → Nat) (m' : Model) : Decidable (m.Rearranged σ m') :=
  decidable_of_iff ((∀ h, h < m.size → σ h < m'.size) ∧
      (∀ a, a < m.size → ∀ b, b < m.size → σ a = σ b → a = b) ∧
      (∀ g, g < m'.size → ∃ h, h < m.size ∧ σ h = g) ∧
      (∀ h, h < m.size → m'.node (σ h) = m.node h) ∧
      ∀ h, h < m.size → m'.parent (σ h) = (m.parent h).map σ)
    ⟨fun ⟨h₁, h₂, h₃, h₄, h₅⟩ => ⟨h₁, h₂, h₃, h₄, h₅⟩,
      fun h => ⟨h.lt_size, h.injective, h.onto, h.node, h.parent⟩⟩

variable {m m' : Model} {σ : Nat → Nat}

/-! ## What is above a node -/

namespace Rearranged

variable (hr : m.Rearranged σ m')

include hr

theorem kind {h : Nat} (hh : h < m.size) : m'.kind (σ h) = m.kind h :=
  congrArg Node.kind (hr.node h hh)

theorem name {h : Nat} (hh : h < m.size) : m'.name (σ h) = m.name h :=
  congrArg Node.name (hr.node h hh)

theorem climb {h : Nat} (hh : h < m.size) {stop : Option Nat} (hstop : ∀ s ∈ stop, s < m.size) :
    m'.climb (σ h) (stop.map σ) = (m.climb h stop).map σ := by
  induction h using m.induct_parent with
  | root h hp =>
    have hp' : m'.parent (σ h) = none := by rw [hr.parent h hh, hp, Option.map_none]
    rw [climb_of_root hp, climb_of_root hp', List.map_singleton]
  | child h p hp ih =>
    have hps : p < m.size := Nat.lt_trans (parent_lt hp) hh
    have hp' : m'.parent (σ h) = some (σ p) := by rw [hr.parent h hh, hp, Option.map_some]
    have hsame : some (σ p) = stop.map σ ↔ some p = stop := by
      cases stop with
      | none => exact iff_of_false (Option.some_ne_none _) (Option.some_ne_none _)
      | some s =>
        rw [Option.map_some, Option.some_inj, Option.some_inj]
        exact ⟨hr.injective p hps s (hstop s rfl), congrArg σ⟩
    rw [climb_of_parent hp, climb_of_parent hp', ih hps, List.map_cons]
    by_cases hstopped : some p = stop
    · rw [if_pos (hsame.2 hstopped), if_pos hstopped, List.map_nil]
    · rw [if_neg (mt hsame.1 hstopped), if_neg hstopped]

theorem lineage {h : Nat} (hh : h < m.size) : m'.lineage (σ h) = (m.lineage h).map σ := by
  have hnone : ∀ s ∈ (none : Option Nat), s < m.size := fun s hs => nomatch hs
  have hclimb := hr.climb hh hnone
  rwa [Option.map_none, climb_none, climb_none] at hclimb

theorem ancestors {h : Nat} (hh : h < m.size) : m'.ancestors (σ h) = (m.ancestors h).map σ :=
  (List.cons.inj (hr.lineage hh)).2

theorem mem_lineage {top h : Nat} (htop : top < m.size) (hh : h < m.size) :
    σ top ∈ m'.lineage (σ h) ↔ top ∈ m.lineage h := by
  rw [hr.lineage hh, List.mem_map]
  constructor
  · rintro ⟨a, ha, hσ⟩
    have hle : a ≤ h := le_of_mem_lineage ha
    exact hr.injective a (by omega) top htop hσ ▸ ha
  · intro htop
    exact ⟨top, htop, rfl⟩

theorem relPath {h : Nat} (hh : h < m.size) {stop : Option Nat} (hstop : ∀ s ∈ stop, s < m.size)
    (sep : String) : m'.relPath (σ h) (stop.map σ) sep = m.relPath h stop sep := by
  have hnames : ((m.climb h stop).map σ).map m'.name = (m.climb h stop).map m.name := by
    rw [List.map_map]
    refine List.map_congr_left fun a ha => hr.name ?_
    exact Nat.lt_of_le_of_lt (le_of_mem_lineage (mem_lineage_of_mem_climb ha)) hh
  rw [relPath_eq_join_climb, relPath_eq_join_climb, hr.climb hh hstop, hnames]

end Rearranged

end Model

/-! ## Class names -/

namespace Model.Rearranged

variable {m m' : Model} {σ : Nat → Nat} {top h : Nat} (hr : m.Rearranged σ m')

include hr

theorem scopePath? (hh : h < m.size) (style : NamingStyle) (upperCase : Bool) (sep : String) :
    (Naming.mk m' (σ top) style upperCase).scopePath? (σ h) sep =
      (Naming.mk m top style upperCase).scopePath? h sep := by
  have habove : ((m.ancestors h).map σ).map m'.node = (m.ancestors h).map m.node := by
    rw [List.map_map]
    exact List.map_congr_left fun a ha => hr.node a (lt_size_of_mem_ancestors hh ha)
  unfold Naming.scopePath?
  rw [hr.ancestors hh, habove, hr.node h hh]

/-- **A class name depends on what is above a node only.** -/
theorem className (htop : top < m.size) (hh : h < m.size) (style : NamingStyle)
    (upperCase : Bool) :
    (Naming.mk m' (σ top) style upperCase).className (σ h) =
      (Naming.mk m top style upperCase).className h := by
  have hstop : ∀ s ∈ m.parent top, s < m.size := by
    intro s hs
    have : s < top := parent_lt hs
    omega
  have hpath : ∀ sep, (Naming.mk m' (σ top) style upperCase).instancePath (σ h) sep =
      (Naming.mk m top style upperCase).instancePath h sep := by
    intro sep
    unfold Naming.instancePath
    rw [hr.parent top htop, hr.relPath hh hstop]
  unfold Naming.className
  rw [hr.scopePath? hh, hpath]

/-! ## Regions -/

/-- The components with a class in a region are the same ones. -/
theorem perm_classed (htop : top < m.size) :
    (m'.classed (σ top)).Perm ((m.classed top).map σ) := by
  have hnodup : ((m.classed top).map σ).Nodup :=
    (nodup_classed m top).map_on fun a ha b hb =>
      hr.injective a (lt_size_of_mem_classed ha) b (lt_size_of_mem_classed hb)
  refine (List.perm_ext_iff_of_nodup (nodup_classed m' (σ top)) hnodup).2 fun g => ?_
  rw [List.mem_map, mem_classed, mem_region]
  constructor
  · rintro ⟨⟨hg, hline⟩, hkind⟩
    obtain ⟨a, ha, rfl⟩ := hr.onto g hg
    rw [hr.mem_lineage htop ha] at hline
    rw [hr.kind ha] at hkind
    exact ⟨a, mem_classed.2 ⟨mem_region.2 ⟨ha, hline⟩, hkind⟩, rfl⟩
  · rintro ⟨a, ha, rfl⟩
    obtain ⟨hregion, hkind⟩ := mem_classed.1 ha
    obtain ⟨has, hline⟩ := mem_region.1 hregion
    rw [hr.mem_lineage htop has, hr.kind has]
    exact ⟨⟨hr.lt_size a has, hline⟩, hkind⟩

end Model.Rearranged

end RegLayer
