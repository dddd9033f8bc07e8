/-
# `RegLayer.Proofs.Svd.Bits` — fields and the bits of their registers

A field, and each of its repetitions, has to lie inside its register, and there has to be an index
for each repetition (`Field.Fits`).  This is all that is asked of the fields of a register
(`fits_of_fieldNodes`, `failsOnly_fieldNodes`): if it holds they are imported, and if not
the import ends with a fault of the design.

The one exception is the place where the end of a repetition is counted.  It is counted in 32 bits
before it is compared, so a field whose first misplaced repetition ends beyond a word
(`Field.Overruns`) makes the import abort.  Repetitions are checked in their order, and the first
one that does not fit decides (`Refused`).
-/
import RegLayer.Proofs.Svd.Origins

namespace RegLayer.Svd

/-! ## Where repetitions lie -/

namespace Field

/-- How often a field is there. -/
def count (f : Field) : Nat :=
  f.repetition.elim 1 (·.count.toNat)

/-- How far apart neighbouring repetitions are. -/
def step (f : Field) : Nat :=
  f.repetition.elim 0 (·.increment.toNat)

/-- The bit after the last one of the k-th repetition. -/
def endOf (f : Field) (k : Nat) : Nat :=
  f.range.lsb.toNat + k * f.step + f.range.width.toNat

/-- The k-th repetition has bits, and they lie inside a register of this size. -/
def FitsAt (f : Field) (size : UInt32) (k : Nat) : Prop :=
  0 < f.range.width.toNat ∧ f.endOf k ≤ size.toNat

/-- If indices are given, there is one for each repetition. -/
def Indexed (f : Field) : Prop :=
  ∀ r ∈ f.repetition, ∀ is ∈ r.indices, is.length = r.count.toNat

/-- All repetitions have an index and lie inside a register of this size. -/
structure Fits (f : Field) (size : UInt32) : Prop where
  indexed : f.Indexed
  inside : ∀ k, k < f.count → f.FitsAt size k

/-- The first repetition that does not fit ends beyond what a word can count. -/
def Overruns (f : Field) (size : UInt32) : Prop :=
  ∃ k, k < f.count ∧ (∀ j, j < k → f.FitsAt size j) ∧ 2 ^ 32 ≤ f.endOf k

instance (f : Field) (size : UInt32) (k : Nat) : Decidable (f.FitsAt size k) :=
  inferInstanceAs (Decidable (_ ∧ _))

instance (f : Field) (size : UInt32) : Decidable (f.Overruns size) :=
  inferInstanceAs (Decidable (∃ k, k < f.count ∧ _))

variable {f : Field} {size : UInt32}

theorem endOf_zero (f : Field) : f.endOf 0 = f.range.lsb.toNat + f.range.width.toNat := by
  rw [endOf, Nat.zero_mul, Nat.add_zero]

/-- The field is refused for its bits, or where their end is counted. -/
def Refused (f : Field) (size : UInt32) (e : Failure) : Prop :=
  e.OfModel ∧ ¬f.Fits size ∨ e = .abort .overflow ∧ f.Overruns size

theorem refused_of_first {k : Nat} {e : Failure} (hk : k < f.count)
    (hbefore : ∀ j, j < k → f.FitsAt size j)
    (h : e.OfModel ∧ ¬f.FitsAt size k ∨ e = .abort .overflow ∧ 2 ^ 32 ≤ f.endOf k) :
    f.Refused size e := by
  rcases h with ⟨hmodel, hnot⟩ | ⟨rfl, hend⟩
  · exact .inl ⟨hmodel, fun hfits => hnot (hfits.inside k hk)⟩
  · exact .inr ⟨rfl, k, hk, hbefore, hend⟩

theorem Overruns.not_fits (h : f.Overruns size) : ¬f.Fits size := by
  obtain ⟨k, hk, _, hend⟩ := h
  intro hfits
  have hinside := (hfits.inside k hk).2
  have hlt : size.toNat < 2 ^ 32 := size.toNat_lt
  omega

end Field

/-! ## One repetition -/

section Fields

variable {d : FieldDefaults} {f : Field} {r : Repetition} {n : Node} {lsb : UInt32}

theorem FieldDefaults.inside_of_check {name : String} {width : UInt32} {u : Unit}
    (h : d.check name lsb width = .ok u) :
    0 < width.toNat ∧ lsb.toNat + width.toNat ≤ d.width.toNat := by
  obtain ⟨end_, hend, h⟩ := bind_eq_ok.1 h
  rw [Checked.add32_eq_ok_iff] at hend
  split at h
  · cases h
  · next hinside =>
    rw [not_or, UInt32.not_lt, UInt32.le_iff_toNat_le, hend] at hinside
    exact ⟨Nat.pos_of_ne_zero fun hzero => hinside.1 (UInt32.toNat_inj.1 hzero), hinside.2⟩

theorem FieldDefaults.failsOnly_check (name : String) (lsb width : UInt32) :
    FailsOnly (fun e =>
        e.OfModel ∧ ¬(0 < width.toNat ∧ lsb.toNat + width.toNat ≤ d.width.toNat) ∨
          e = .abort .overflow ∧ 2 ^ 32 ≤ lsb.toNat + width.toNat) (d.check name lsb width) := by
  -- The end of the field is counted before it is compared.
  refine FailsOnly.bind ?_ fun end_ hend => ?_
  · exact (Checked.failsOnly_within _).imp fun e he => .inr ⟨he.1, Nat.le_of_not_lt he.2⟩
  · rw [Checked.add32_eq_ok_iff] at hend
    split
    · next houtside =>
      refine .error (.inl ⟨rfl, fun ⟨hpos, hle⟩ => ?_⟩)
      rcases houtside with rfl | hlt
      · exact absurd hpos (by decide)
      · rw [UInt32.lt_iff_toNat_lt, hend] at hlt
        exact absurd hle (Nat.not_le_of_gt hlt)
    · exact .ok ()

theorem Field.inside_of_nodeAt {name : String} (h : f.nodeAt d name lsb = .ok n) :
    0 < f.range.width.toNat ∧ lsb.toNat + f.range.width.toNat ≤ d.width.toNat := by
  obtain ⟨_, hcheck, _⟩ := bind_eq_ok.1 h
  exact FieldDefaults.inside_of_check hcheck

theorem Field.fitsAt_of_repeated {which : String × Nat} (hr : f.repetition = some r)
    (hlt : which.2 < r.count.toNat) (h : f.repeated d r which = .ok n) :
    f.FitsAt d.width which.2 := by
  simp only [Field.repeated, bind_eq_ok, Checked.mul32_eq_ok_iff, Checked.add32_eq_ok_iff] at h
  obtain ⟨step, hstep, lsb, hlsb, h⟩ := h
  have hk : (UInt32.ofNat which.2).toNat = which.2 :=
    UInt32.toNat_ofNat_of_lt (Nat.lt_trans hlt r.count.toNat_lt)
  obtain ⟨hpos, hle⟩ := Field.inside_of_nodeAt h
  rw [hlsb, hstep, hk] at hle
  refine ⟨hpos, ?_⟩
  simp only [endOf, Field.step, hr, Option.elim_some]
  exact hle

theorem Field.failsOnly_repeated {which : String × Nat} (hr : f.repetition = some r)
    (hlt : which.2 < r.count.toNat) :
    FailsOnly (fun e => e.OfModel ∧ ¬f.FitsAt d.width which.2 ∨
        e = .abort .overflow ∧ 2 ^ 32 ≤ f.endOf which.2) (f.repeated d r which) := by
  have hk : (UInt32.ofNat which.2).toNat = which.2 :=
    UInt32.toNat_ofNat_of_lt (Nat.lt_trans hlt r.count.toNat_lt)
  have hend : f.endOf which.2 =
      f.range.lsb.toNat + which.2 * r.increment.toNat + f.range.width.toNat := by
    simp only [endOf, Field.step, hr, Option.elim_some]
  unfold FitsAt
  rw [hend]
  -- The three sums and products below are parts of the end of the repetition.
  refine FailsOnly.bind ?_ fun step hstep => ?_
  · refine (Checked.failsOnly_within _).imp fun e he => .inr ⟨he.1, ?_⟩
    have hbeyond := Nat.le_of_not_lt he.2
    rw [hk] at hbeyond
    exact Nat.le_trans hbeyond (by omega)
  rw [Checked.mul32_eq_ok_iff, hk] at hstep
  refine FailsOnly.bind ?_ fun lsb hlsb => ?_
  · refine (Checked.failsOnly_within _).imp fun e he => .inr ⟨he.1, ?_⟩
    have hbeyond := Nat.le_of_not_lt he.2
    rw [hstep] at hbeyond
    exact Nat.le_trans hbeyond (by omega)
  rw [Checked.add32_eq_ok_iff, hstep] at hlsb
  have hcheck := d.failsOnly_check (indexedName f.name which.1) lsb f.range.width
  rw [hlsb] at hcheck
  exact hcheck.bind fun _ _ => .ok _

/-! ## All repetitions -/

theorem zipIdx_eq_append {α : Type} {l : List α} {before after : List (α × Nat)}
    {which : α × Nat} (h : l.zipIdx = before ++ which :: after) :
    which.2 < l.length ∧ ∀ j, j < which.2 → ∃ a, (a, j) ∈ before := by
  have hnumbers := congrArg (List.map Prod.snd) h
  rw [List.zipIdx_map_snd, List.map_append, List.map_cons, List.range'_eq_append_iff] at hnumbers
  obtain ⟨k, _, hbefore, hrest⟩ := hnumbers
  obtain ⟨hwhich, hpos, _⟩ := List.range'_eq_cons_iff.1 hrest.symm
  refine ⟨by omega, fun j hj => ?_⟩
  have hmem : j ∈ before.map Prod.snd := by
    rw [hbefore, List.mem_range'_1]
    omega
  obtain ⟨⟨a, _⟩, ha, rfl⟩ := List.mem_map.1 hmem
  exact ⟨a, ha⟩

theorem Field.indexed_of_indices {is : List String} (hr : f.repetition = some r)
    (h : f.indices d r = .ok is) : f.Indexed := by
  intro r' hr' given hgiven
  obtain rfl : r = r' := Option.some.inj (hr.symm.trans hr')
  simp only [Field.indices, Option.mem_def.1 hgiven] at h
  split at h
  · next hlength => exact hlength
  · cases h

theorem Field.failsOnly_indices (hr : f.repetition = some r) :
    FailsOnly (fun e => e.OfModel ∧ ¬f.Indexed) (f.indices d r) := by
  unfold Field.indices
  split
  · exact .ok _
  · next is his =>
    split
    · exact .ok is
    · next hlength => exact .error ⟨rfl, fun hindexed => hlength (hindexed r hr is his)⟩

theorem Field.fits_of_nodes {nodes : List Node} (h : f.nodes d = .ok nodes) : f.Fits d.width := by
  cases hr : f.repetition with
  | none =>
    simp only [Field.nodes, hr, bind_eq_ok, pure_eq_ok] at h
    obtain ⟨n, hn, _⟩ := h
    refine ⟨fun r hsome => absurd (hr.symm.trans hsome) (by simp), fun k hk => ?_⟩
    simp only [Field.count, hr, Option.elim_none, Nat.lt_one_iff] at hk
    subst hk
    obtain ⟨hpos, hle⟩ := Field.inside_of_nodeAt hn
    exact ⟨hpos, by rwa [Field.endOf_zero]⟩
  | some r =>
    simp only [Field.nodes, hr, bind_eq_ok] at h
    obtain ⟨is, his, hnodes⟩ := h
    obtain ⟨hlength, _⟩ := index?_of_indices his
    refine ⟨Field.indexed_of_indices hr his, fun k hk => ?_⟩
    simp only [Field.count, hr, Option.elim_some] at hk
    have hlt : k < is.length := hlength ▸ hk
    have hget : is.zipIdx[k]? = some (is[k], k) := by
      rw [List.getElem?_zipIdx, List.getElem?_eq_getElem hlt, Option.map_some, Nat.zero_add]
    obtain ⟨n, _, hn⟩ := forall₂_getElem? (mapM_eq_ok.1 hnodes) hget
    exact Field.fitsAt_of_repeated hr hk hn

theorem Field.failsOnly_nodes : FailsOnly (f.Refused d.width) (f.nodes d) := by
  cases hr : f.repetition with
  | none =>
    have hcount : 0 < f.count := by simp [Field.count, hr]
    simp only [Field.nodes, hr]
    refine FailsOnly.bind (FailsOnly.bind ?_ fun _ _ => .ok _) fun _ _ => .ok _
    refine (d.failsOnly_check f.name f.range.lsb f.range.width).imp fun e he => ?_
    refine Field.refused_of_first hcount (fun j hj => absurd hj j.not_lt_zero) ?_
    rwa [Field.FitsAt, Field.endOf_zero]
  | some r =>
    simp only [Field.nodes, hr]
    refine FailsOnly.bind ?_ fun is his => ?_
    · refine (Field.failsOnly_indices hr).imp fun e he => .inl ⟨he.1, fun hfits => ?_⟩
      exact he.2 hfits.indexed
    -- The repetitions before the one that is refused have all been imported.
    intro e he
    obtain ⟨before, which, after, hsplit, hbefore, hfail⟩ := mapM_eq_error he
    obtain ⟨hlt, hnumbers⟩ := zipIdx_eq_append hsplit
    rw [(index?_of_indices his).1] at hlt
    refine Field.refused_of_first (by simpa [Field.count, hr] using hlt) (fun j hj => ?_)
      (Field.failsOnly_repeated hr hlt e hfail)
    obtain ⟨index, hmem⟩ := hnumbers j hj
    obtain ⟨n, hn⟩ := hbefore _ hmem
    have hbelow : (index, j).2 < r.count.toNat := Nat.lt_trans hj hlt
    exact Field.fitsAt_of_repeated hr hbelow hn

/-! ## The fields of a register -/

theorem Register.fits_of_fieldNodes {r : Register} {nodes : List Node}
    (h : r.fieldNodes d = .ok nodes) : ∀ f ∈ r.fields, f.Fits d.width := by
  intro f hf
  unfold fieldNodes at h
  split at h
  · next hnone =>
    rw [hnone] at hf
    exact absurd hf List.not_mem_nil
  · obtain ⟨nss, hnss, _⟩ := bind_eq_ok.1 h
    obtain ⟨i, hi, rfl⟩ := List.mem_iff_getElem.1 hf
    obtain ⟨ns, _, hns⟩ := forall₂_getElem? (mapM_eq_ok.1 hnss) (List.getElem?_eq_getElem hi)
    exact Field.fits_of_nodes hns

theorem Register.failsOnly_fieldNodes (r : Register) (d : FieldDefaults) :
    FailsOnly (fun e => ∃ f ∈ r.fields, f.Refused d.width e) (r.fieldNodes d) := by
  unfold fieldNodes
  split
  · exact .ok _
  · refine FailsOnly.bind (FailsOnly.mapM fun f hf => ?_) fun _ _ => .ok _
    exact Field.failsOnly_nodes.imp fun e he => ⟨f, hf, he⟩

end Fields

end RegLayer.Svd
