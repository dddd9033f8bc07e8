/-
# `RegLayer.Proofs.Classes.Fits` — describing where every number fits

The class of one component can fail to be described in one way only: a number leaves its word
(`onlyOverflow_body?`).  There are two places for it, the bus width in bytes and the steps of the
loop variables of an array.

`Model.Fits` says of a region that neither happens.  It speaks of the model alone, of the widths
of its accesses and the shapes of its arrays, and it can be decided.  Every component of a region
that fits has its class described (`exists_body?_of_fits`), because a bus is as wide as one of the
accesses below it (`Model.exists_widestIn`), and if that one fits the bus does.
-/
import RegLayer.Proofs.BusWidth
import RegLayer.Proofs.Layer

namespace RegLayer

open Classes

/-! ## One component -/

theorem Offset.onlyOverflow_stepsOf (stride : UInt64) (dims : List UInt64) :
    OnlyOverflow (stepsOf stride dims) := by
  induction dims with
  | nil => exact onlyOverflow_ok []
  | cons d inner ih =>
    refine (Checked.onlyOverflow_product inner).bind fun elements => ?_
    refine (Checked.onlyOverflow_within _).bind fun step => ?_
    exact ih.bind fun steps => onlyOverflow_ok (step :: steps)

theorem Offset.onlyOverflow_ofNode (n : Node) : OnlyOverflow (ofNode n) := by
  unfold ofNode
  cases n.array with
  | none => exact onlyOverflow_ok _
  | some shape => exact (onlyOverflow_stepsOf shape.stride shape.dims).map _

namespace Classes.Context

variable (ctx : Context)

theorem onlyOverflow_member (h : Nat) : OnlyOverflow (ctx.member h) :=
  (Offset.onlyOverflow_ofNode _).bind fun _ => onlyOverflow_ok _

theorem onlyOverflow_block (h : Nat) : OnlyOverflow (some <$> ctx.block h).outcome := by
  rw [outcome_map, outcome_block]
  refine OnlyOverflow.map ((onlyOverflow_busBytes _ _).bind fun bytes => ?_) _
  exact (OnlyOverflow.mapM ctx.onlyOverflow_member).bind fun members => onlyOverflow_ok _

/-- **A class is described, or a number leaves its word.** -/
theorem onlyOverflow_body? (h : Nat) : OnlyOverflow (ctx.body? h).outcome := by
  unfold body?
  cases ctx.names.model.kind h with
  | addrmap endianness bridge => exact ctx.onlyOverflow_block h
  | regfile => exact ctx.onlyOverflow_block h
  | reg width accessWidth => exact onlyOverflow_ok _
  | mem entries width policy =>
    show OnlyOverflow (some <$> ctx.memory h entries width policy).outcome
    rw [outcome_map, outcome_memory]
    exact OnlyOverflow.map ((onlyOverflow_busBytes _ _).bind fun bytes => onlyOverflow_ok _) _
  | field spec => exact onlyOverflow_ok _
  | signal => exact onlyOverflow_ok _

end Classes.Context

/-! ## Regions where everything fits -/

/-- No access in the region is so wide that its width in bytes cannot be computed, and the array
products of every component below the top stay in their word. -/
structure Model.Fits (m : Model) (top : Nat) : Prop where
  widths : ∀ h ∈ m.classed top, (m.kind h).accessBits.toNat + 7 < UInt32.size
  arrays : ∀ h ∈ m.classed top, h ≠ top → ∃ offset, Offset.ofNode (m.node h) = .ok offset

instance (m : Model) (top : Nat) : Decidable (m.Fits top) :=
  decidable_of_iff ((∀ h ∈ m.classed top, (m.kind h).accessBits.toNat + 7 < UInt32.size) ∧
      ∀ h ∈ m.classed top, h ≠ top → (Offset.ofNode (m.node h)).isOk = true) (by
    have hiff : ∀ h, (Offset.ofNode (m.node h)).isOk = true ↔
        ∃ offset, Offset.ofNode (m.node h) = .ok offset := fun h => isOk_iff
    simp only [hiff]
    exact ⟨fun h => ⟨h.1, h.2⟩, fun h => ⟨h.widths, h.arrays⟩⟩)

theorem Kind.accessBits_of_not_hasClass {kind : Kind} (hk : kind.hasClass = false) :
    kind.accessBits = 0 := by
  cases kind <;> first | rfl | cases hk

/-- The widest of several accesses is one of them. -/
theorem Model.exists_widestIn (m : Model) (l : List Nat) :
    m.widestIn l = 0 ∨ ∃ a ∈ l, m.widestIn l = (m.kind a).accessBits := by
  induction l with
  | nil => exact Or.inl rfl
  | cons a l ih =>
    have hcons : m.widestIn (a :: l) = max (m.kind a).accessBits (m.widestIn l) := rfl
    have hor : m.widestIn (a :: l) = (m.kind a).accessBits ∨
        m.widestIn (a :: l) = m.widestIn l := by
      rw [hcons, ← UInt32.toNat_inj, ← UInt32.toNat_inj, toNat_max]
      omega
    rcases hor with hhead | htail
    · exact Or.inr ⟨a, List.mem_cons_self, hhead⟩
    · rcases ih with hzero | ⟨b, hb, heq⟩
      · exact Or.inl (htail.trans hzero)
      · exact Or.inr ⟨b, List.mem_cons_of_mem a hb, htail.trans heq⟩

namespace Model.Fits

variable {m : Model} {top : Nat} (hfits : m.Fits top)

include hfits

theorem widestIn_lt {l : List Nat} (hl : ∀ a ∈ l, a ∈ m.region top) :
    (m.widestIn l).toNat + 7 < UInt32.size := by
  have hzero : (0 : UInt32).toNat + 7 < UInt32.size := by decide
  rcases m.exists_widestIn l with heq | ⟨a, ha, heq⟩
  · rw [heq]
    exact hzero
  · rw [heq]
    cases hk : (m.kind a).hasClass with
    | true => exact hfits.widths a (mem_classed.2 ⟨hl a ha, hk⟩)
    | false =>
      rw [Kind.accessBits_of_not_hasClass hk]
      exact hzero

theorem width?_lt (hf : m.Forest) (htop : top < m.size) (path : String) :
    (((WidthTable.build m top).width? path).getD 0).toNat + 7 < UInt32.size := by
  rw [WidthTable.width?_build]
  cases hfind : (m.groups top).reverse.find? fun g => m.path g == path with
  | none => exact (by decide : (0 : UInt32).toNat + 7 < UInt32.size)
  | some g =>
    have hg : g ∈ m.groups top := List.mem_reverse.1 (List.mem_of_find?_eq_some hfind)
    have hgtop : top ∈ m.lineage g := (mem_postorder hf).1 (List.mem_filter.1 hg).1
    refine hfits.widestIn_lt fun a ha => ?_
    have hline : top ∈ m.lineage a := mem_lineage_trans ((mem_postorder hf).1 ha) hgtop
    exact (mem_region_iff_mem_postorder hf htop).2 ((mem_postorder hf).2 hline)

end Model.Fits

theorem exists_busBytes {bits : UInt32} (path : String) (h : bits.toNat + 7 < UInt32.size) :
    ∃ bytes, (busBytes path bits).outcome = .ok bytes := by
  unfold busBytes
  split
  · exact ⟨1, rfl⟩
  · refine ⟨(bits + 7) / 8, bind_eq_ok.2 ⟨bits + 7, ?_, rfl⟩⟩
    exact Checked.within_eq_ok_iff.2 ⟨h, rfl⟩

namespace Model

variable {m : Model} {top h c : Nat}

theorem mem_classed_of_mem_children (hf : m.Forest) (hh : h ∈ m.region top)
    (hc : c ∈ m.children h) (hk : (m.kind c).hasClass = true) : c ∈ m.classed top ∧ c ≠ top := by
  have hline : top ∈ m.lineage h := (mem_region.1 hh).2
  have hp : m.parent c = some h := (hf.mem_children h c).1 hc
  refine ⟨mem_classed.2 ⟨mem_region.2 ⟨lt_size_of_parent hp, ?_⟩, hk⟩, ?_⟩
  · exact (mem_lineage_of_parent hp).2 (Or.inr hline)
  · have h₁ : top ≤ h := le_of_mem_lineage hline
    have h₂ : h < c := parent_lt hp
    omega

end Model

theorem Classes.Context.exists_member {ctx : Context} {h : Nat} {offset : Offset}
    (ho : Offset.ofNode (ctx.names.model.node h) = .ok offset) :
    ∃ member, ctx.member h = .ok member :=
  ⟨_, bind_eq_ok.2 ⟨offset, ho, rfl⟩⟩

/-- **Where everything fits every class is described.** -/
theorem Exporter.exists_body?_of_fits {e : Exporter} {m : Model} {top h : Nat} (hf : m.Forest)
    (htop : top < m.size) (hfits : m.Fits top) (hh : h ∈ m.region top) :
    ∃ body, ((e.context m top).body? h).outcome = .ok body := by
  -- Address maps and register files are described in the same way.
  have hblock : ∃ body, ((e.context m top).block h).outcome = .ok body := by
    obtain ⟨bytes, hbytes⟩ := exists_busBytes (m.path h) (hfits.width?_lt hf htop (m.path h))
    have hcomps : ∀ c ∈ (e.context m top).components h,
        ∃ member, (e.context m top).member c = .ok member := by
      intro c hc
      obtain ⟨hc, hk⟩ := List.mem_filter.1 hc
      obtain ⟨hclassed, hne⟩ := Model.mem_classed_of_mem_children hf hh hc hk
      obtain ⟨offset, ho⟩ := hfits.arrays c hclassed hne
      exact Context.exists_member ho
    obtain ⟨members, hmembers⟩ := exists_mapM_eq_ok hcomps
    rw [Context.outcome_block]
    exact ⟨_, bind_eq_ok.2 ⟨bytes, hbytes, bind_eq_ok.2 ⟨members, hmembers, rfl⟩⟩⟩
  unfold Context.body?
  cases hk : (e.context m top).names.model.kind h with
  | addrmap endianness bridge =>
    obtain ⟨body, hbody⟩ := hblock
    exact ⟨some body, (outcome_map _ _).trans (map_eq_ok.2 ⟨body, hbody, rfl⟩)⟩
  | regfile =>
    obtain ⟨body, hbody⟩ := hblock
    exact ⟨some body, (outcome_map _ _).trans (map_eq_ok.2 ⟨body, hbody, rfl⟩)⟩
  | reg width accessWidth => exact ⟨_, rfl⟩
  | mem entries width policy =>
    have hclassed : h ∈ m.classed top :=
      Model.mem_classed.2 ⟨hh, (congrArg Kind.hasClass hk).trans rfl⟩
    have hlt : width.toNat + 7 < UInt32.size := by
      have := hfits.widths h hclassed
      rwa [show m.kind h = .mem entries width policy from hk] at this
    obtain ⟨bytes, hbytes⟩ := exists_busBytes (m.path h) hlt
    have hmemory := Context.outcome_memory (e.context m top) h entries width policy
    have hok := hmemory.trans (bind_eq_ok.2 ⟨bytes, hbytes, rfl⟩)
    exact ⟨_, (outcome_map _ _).trans (map_eq_ok.2 ⟨_, hok, rfl⟩)⟩
  | field spec => exact ⟨_, rfl⟩
  | signal => exact ⟨_, rfl⟩

end RegLayer
