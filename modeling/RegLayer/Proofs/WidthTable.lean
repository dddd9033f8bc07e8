/-
# `RegLayer.Proofs.WidthTable` — what a look-up in the table says

The walk records the groups of a region in the order of a traversal (`width?_build`).  Here the
table is read without the walk: a path has a width if and only if it is the path of a group of the
region, the nodes that have the top in their lineage; the width is the greatest of the accesses
below the last group with the path; and there are as many rows as there are paths
(`holds_subtree_maxima`).

The last group is the one that the traversal meets last (`LastGroup`).  Where paths tell groups
apart there is only one, and two groups of one name show that there can be more (`samePath`).

Taken as given: the model was built step by step.
-/
import Mathlib.Data.List.Dedup
import RegLayer.Proofs.BusWidth
import RegLayer.Proofs.Classes.Once

namespace RegLayer

/-- The width of one access to a register or memory; nothing else is accessed. -/
def Kind.access? : Kind → Option UInt32
  | .reg _ accessWidth => some accessWidth
  | .mem _ width _ => some width
  | .addrmap _ _ | .regfile | .field _ | .signal => none

theorem Kind.accessBits_eq (kind : Kind) : kind.accessBits = kind.access?.getD 0 := by
  cases kind <;> rfl

namespace Model

variable {m : Model}

/-! ## Groups -/

theorem lt_size_of_isGroup {h : Nat} (hk : (m.kind h).isGroup = true) : h < m.size := by
  by_cases hh : h < m.size
  · exact hh
  · unfold kind node at hk
    rw [Array.getElem?_eq_none (by unfold size at hh; omega)] at hk
    cases hk

theorem mem_groups {top g : Nat} :
    g ∈ m.groups top ↔ g ∈ m.postorder top ∧ (m.kind g).isGroup = true :=
  List.mem_filter

theorem mem_groups_iff_mem_region (hf : Forest m) {top g : Nat} :
    g ∈ m.groups top ↔ g ∈ m.region top ∧ (m.kind g).isGroup = true := by
  rw [mem_groups, mem_postorder hf, mem_region]
  constructor
  · rintro ⟨habove, hk⟩
    exact ⟨⟨lt_size_of_isGroup hk, habove⟩, hk⟩
  · rintro ⟨⟨_, habove⟩, hk⟩
    exact ⟨habove, hk⟩

/-- Of the groups with this path from a node downwards, the one that a traversal leaves last. -/
structure LastGroup (m : Model) (top : Nat) (p : String) (g : Nat) : Prop where
  isGroup : (m.kind g).isGroup = true
  path_eq : m.path g = p
  last : ∃ before after, m.postorder top = before ++ g :: after ∧
    ∀ a ∈ after, (m.kind a).isGroup = true → m.path a ≠ p

theorem find?_groups_eq_some_iff {top g : Nat} {p : String} :
    ((m.groups top).reverse.find? fun g => m.path g == p) = some g ↔ m.LastGroup top p g := by
  have hsearch : ((m.groups top).reverse.find? fun g => m.path g == p) =
      (m.postorder top).reverse.find? fun g => (m.kind g).isGroup && (m.path g == p) := by
    unfold groups
    rw [← List.filter_reverse, List.find?_filter]
    simp only [Bool.decide_and, Bool.decide_eq_true]
  rw [hsearch, List.find?_eq_some_iff_append, Bool.and_eq_true, beq_iff_eq]
  constructor
  · rintro ⟨⟨hk, hpath⟩, after, before, hsplit, hafter⟩
    refine ⟨hk, hpath, before.reverse, after.reverse, ?_, fun a ha hka hpa => ?_⟩
    · simpa using congrArg List.reverse hsplit
    · have := hafter a (List.mem_reverse.1 ha)
      simp [hka, hpa] at this
  · rintro ⟨hk, hpath, before, after, hsplit, hafter⟩
    refine ⟨⟨hk, hpath⟩, after.reverse, before.reverse, ?_, fun a ha => ?_⟩
    · rw [hsplit]
      simp
    · cases hka : (m.kind a).isGroup with
      | false => rfl
      | true => simpa using hafter a (List.mem_reverse.1 ha) hka

theorem exists_lastGroup_iff (hf : Forest m) {top : Nat} {p : String} :
    (∃ g, m.LastGroup top p g) ↔
      ∃ g ∈ m.region top, (m.kind g).isGroup = true ∧ m.path g = p := by
  have hfound : (∃ g, m.LastGroup top p g) ↔
      ((m.groups top).reverse.find? fun g => m.path g == p).isSome = true := by
    rw [Option.isSome_iff_exists]
    exact exists_congr fun g => find?_groups_eq_some_iff.symm
  rw [hfound, List.find?_isSome]
  constructor
  · rintro ⟨g, hg, hpath⟩
    obtain ⟨hregion, hk⟩ := (mem_groups_iff_mem_region hf).1 (List.mem_reverse.1 hg)
    exact ⟨g, hregion, hk, by simpa using hpath⟩
  · rintro ⟨g, hregion, hk, rfl⟩
    have hg := (mem_groups_iff_mem_region hf).2 ⟨hregion, hk⟩
    exact ⟨g, List.mem_reverse.2 hg, beq_self_eq_true _⟩

/-! ## Accesses -/

/-- The widths of all accesses to registers and memories in the region of a node. -/
def accesses (m : Model) (h : Nat) : List Nat :=
  (m.region h).filterMap fun a => (m.kind a).access?.map UInt32.toNat

theorem widestIn_le_iff (m : Model) (l : List Nat) (n : Nat) :
    (m.widestIn l).toNat ≤ n ↔ ∀ a ∈ l, (m.kind a).accessBits.toNat ≤ n := by
  induction l with
  | nil => simp [widestIn]
  | cons a l ih =>
    have hcons : m.widestIn (a :: l) = max (m.kind a).accessBits (m.widestIn l) := rfl
    rw [hcons, toNat_max, Nat.max_le, ih, List.forall_mem_cons]

theorem getD_max?_le_iff (l : List Nat) (n : Nat) : l.max?.getD 0 ≤ n ↔ ∀ a ∈ l, a ≤ n := by
  cases hmax : l.max? with
  | none =>
    rw [List.max?_eq_none_iff] at hmax
    simp [hmax]
  | some a => exact List.max?_le_iff hmax

theorem toNat_widest (hf : Forest m) {g : Nat} (hg : g < m.size) :
    (m.widest g).toNat = (m.accesses g).max?.getD 0 := by
  -- Both are the least number that no access exceeds.
  have hbounds : ∀ n, (m.widest g).toNat ≤ n ↔ (m.accesses g).max?.getD 0 ≤ n := by
    intro n
    unfold widest accesses
    rw [widestIn_le_iff, getD_max?_le_iff]
    simp only [List.mem_filterMap, Option.map_eq_some_iff, mem_region_iff_mem_postorder hf hg,
      Kind.accessBits_eq]
    constructor
    · rintro hall b ⟨a, ha, width, hwidth, rfl⟩
      simpa [hwidth] using hall a ha
    · intro hall a ha
      cases haccess : (m.kind a).access? with
      | none => exact Nat.zero_le n
      | some width => exact hall _ ⟨a, ha, width, haccess, rfl⟩
  exact Nat.le_antisymm ((hbounds _).2 (Nat.le_refl _)) ((hbounds _).1 (Nat.le_refl _))

end Model

namespace WidthTable

/-! ## Rows -/

/-- The paths with a width. -/
def paths (t : WidthTable) : List String :=
  t.rows.map (·.1)

theorem paths_record (t : WidthTable) (path : String) (width : UInt32) :
    (t.record path width).paths = path :: t.paths.filter (· != path) := by
  unfold paths record
  rw [List.map_cons, List.filter_map]
  rfl

theorem paths_recordAll (m : Model) {t : WidthTable} (ht : t.paths.Nodup) (gs : List Nat) :
    (recordAll m t gs).paths.Nodup ∧
      ∀ p, p ∈ (recordAll m t gs).paths ↔ p ∈ t.paths ∨ p ∈ gs.map m.path := by
  induction gs generalizing t with
  | nil => exact ⟨ht, fun p => by simp [recordAll]⟩
  | cons g gs ih =>
    have hrecord : (t.record (m.path g) (m.widest g)).paths.Nodup := by
      rw [paths_record]
      exact List.nodup_cons.2 ⟨by simp, ht.filter _⟩
    obtain ⟨hnodup, hmem⟩ := ih hrecord
    refine ⟨hnodup, fun p => ?_⟩
    have hstep : p ∈ (t.record (m.path g) (m.widest g)).paths ↔ p = m.path g ∨ p ∈ t.paths := by
      rw [paths_record, List.mem_cons, List.mem_filter, bne_iff_ne]
      by_cases hp : p = m.path g <;> simp [hp]
    show p ∈ (recordAll m (t.record (m.path g) (m.widest g)) gs).paths ↔ _
    rw [hmem, hstep, List.map_cons, List.mem_cons]
    tauto

theorem size_build {m : Model} (hf : m.Forest) (top : Nat) :
    (build m top).size =
      (((m.region top).filter fun g => (m.kind g).isGroup).map m.path).dedup.length := by
  obtain ⟨hnodup, hmem⟩ := paths_recordAll m (t := empty) List.nodup_nil (m.groups top)
  have hperm : (build m top).paths.Perm
      (((m.region top).filter fun g => (m.kind g).isGroup).map m.path).dedup := by
    rw [build_eq_recordAll]
    refine (List.perm_ext_iff_of_nodup hnodup (List.nodup_dedup _)).2 fun p => ?_
    rw [hmem, List.mem_dedup]
    simp only [List.mem_map, Model.mem_groups_iff_mem_region hf, List.mem_filter]
    exact or_iff_right List.not_mem_nil
  unfold size
  rw [← hperm.length_eq]
  exact (List.length_map _).symm

/-! ## Look-ups -/

theorem width?_build_eq_some_iff {m : Model} {top : Nat} {p : String} {w : UInt32} :
    (build m top).width? p = some w ↔ ∃ g, m.LastGroup top p g ∧ m.widest g = w := by
  rw [width?_build, Option.map_eq_some_iff]
  exact exists_congr fun g => and_congr_left fun _ => Model.find?_groups_eq_some_iff

theorem exists_width?_build_iff {m : Model} (hf : m.Forest) {top : Nat} {p : String} :
    (∃ w, (build m top).width? p = some w) ↔
      ∃ g ∈ m.region top, (m.kind g).isGroup = true ∧ m.path g = p := by
  rw [← Model.exists_lastGroup_iff hf]
  constructor
  · rintro ⟨w, hw⟩
    obtain ⟨g, hlast, _⟩ := width?_build_eq_some_iff.1 hw
    exact ⟨g, hlast⟩
  · rintro ⟨g, hlast⟩
    exact ⟨m.widest g, width?_build_eq_some_iff.2 ⟨g, hlast, rfl⟩⟩

/-- **The table is the maximum over each subtree.**  A path has a width if and only if a group of
the region has this path; the width is then the greatest of the accesses in the region of the last
such group, or zero where there are none; and no path has two rows.  So every block that an export
describes finds the width of its bus. -/
theorem holds_subtree_maxima {m : Model} (hm : m.Built) (top : Nat) :
    (∀ p w, (build m top).width? p = some w ↔
      ∃ g, m.LastGroup top p g ∧ w.toNat = (m.accesses g).max?.getD 0) ∧
    (∀ p, (∃ w, (build m top).width? p = some w) ↔
      ∃ g ∈ m.region top, (m.kind g).isGroup = true ∧ m.path g = p) ∧
    (build m top).size =
      (((m.region top).filter fun g => (m.kind g).isGroup).map m.path).dedup.length ∧
    ∀ e : Exporter, ∀ h ∈ m.postorder top, (m.kind h).isGroup = true →
      ∃ w, (e.context m top).widths.width? (m.path h) = some w := by
  have hf := hm.forest
  refine ⟨fun p w => ?_, fun p => exists_width?_build_iff hf, size_build hf top, ?_⟩
  · rw [width?_build_eq_some_iff]
    refine exists_congr fun g => and_congr_right fun hlast => ?_
    rw [← Model.toNat_widest hf (Model.lt_size_of_isGroup hlast.isGroup), UInt32.toNat_inj]
    exact eq_comm
  · intro e h hh hk
    have hregion := (Model.mem_groups_iff_mem_region hf).1 (Model.mem_groups.2 ⟨hh, hk⟩)
    exact (exists_width?_build_iff hf).2 ⟨h, hregion.1, hk, rfl⟩

/-- A design with two register files of one name; the later one is empty. -/
def samePath : Model :=
  soc [uart "uart" 0, .node { name := "uart", kind := .regfile, offset := 0x100 } [], ram]

/-- The later register file counts, although only the earlier one holds registers. -/
theorem holds_subtree_maxima_samePath :
    (build samePath 0).width? "soc.uart" = some 0 ∧
      (∃ g, samePath.LastGroup 0 "soc.uart" g ∧ (samePath.accesses g).max?.getD 0 = 0) ∧
      (∃ g ∈ samePath.region 0, samePath.path g = "soc.uart" ∧
        (samePath.accesses g).max?.getD 0 = 32) ∧
      (build samePath 0).size = 2 := by
  obtain ⟨hwidth, _, hsize, _⟩ := holds_subtree_maxima (m := samePath) (built_soc _) 0
  have hlater : (build samePath 0).width? "soc.uart" = some 0 := by decide +kernel
  obtain ⟨g, hlast, hg⟩ := (hwidth "soc.uart" 0).1 hlater
  refine ⟨hlater, ⟨g, hlast, hg.symm⟩, by decide +kernel, ?_⟩
  rw [hsize]
  decide +kernel

end WidthTable

end RegLayer
