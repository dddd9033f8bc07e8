/-
# `RegLayer.Proofs.Svd.Resets` — the reset value of a register, split and joined again

Each field of a register gets its part of the register's reset value.  Nothing is lost: where the
fields are apart and have all bits of the register, the parts joined again are the reset value
(`Partitions.joinedReset_eq`).

The parts are seen as sums of bits for this; the order of the fields makes no difference to a sum,
and that the fields partition the register is a statement about sets of bits.  What one field gets
is known from the import (`toNat_resetFor`), and `reset_is_split` says both of every register of
an imported device, with the reset value that is in force there.
-/
import Mathlib.Algebra.BigOperators.Intervals
import Mathlib.Algebra.BigOperators.Ring.Finset
import RegLayer.Proofs.Svd.Registers

namespace RegLayer

/-! ## Numbers as sums of bits -/

/-- A bit of a number, with its weight. -/
def bitAt (value b : Nat) : Nat :=
  value / 2 ^ b % 2 * 2 ^ b

theorem sum_bitAt_range (value width : Nat) :
    ∑ b ∈ Finset.range width, bitAt value b = value % 2 ^ width := by
  induction width with
  | zero => rw [Finset.sum_range_zero, Nat.pow_zero, Nat.mod_one]
  | succ width ih =>
    rw [Finset.sum_range_succ, ih, Nat.mod_pow_succ, bitAt, Nat.mul_comm]

theorem bitAt_add (value lsb b : Nat) :
    bitAt value (lsb + b) = bitAt (value / 2 ^ lsb) b * 2 ^ lsb := by
  unfold bitAt
  rw [Nat.div_div_eq_div_mul, ← Nat.pow_add, Nat.mul_assoc, ← Nat.pow_add, Nat.add_comm b lsb]

theorem sum_bitAt_Ico (value lsb width : Nat) :
    ∑ b ∈ Finset.Ico lsb (lsb + width), bitAt value b =
      value / 2 ^ lsb % 2 ^ width * 2 ^ lsb := by
  rw [Finset.sum_Ico_eq_sum_range, Nat.add_sub_cancel_left, ← sum_bitAt_range, Finset.sum_mul]
  exact Finset.sum_congr rfl fun b _ => bitAt_add value lsb b

/-! ## Fields that have all bits -/

/-- The places of a field's bits. -/
def FieldSpec.bits (spec : FieldSpec) : Finset Nat :=
  Finset.Ico spec.lsb.toNat (spec.lsb.toNat + spec.width.toNat)

/-- The fields are apart, and together they have the bits below the width. -/
structure Partitions (specs : List FieldSpec) (width : Nat) : Prop where
  apart : specs.Pairwise fun s t => Disjoint s.bits t.bits
  covers : ∀ b, b < width ↔ ∃ s ∈ specs, b ∈ s.bits

/-- The reset values of fields, each moved to its place, joined. -/
def joinedReset (specs : List FieldSpec) : Nat :=
  (specs.map fun s => s.reset.elim 0 (·.toNat) * 2 ^ s.lsb.toNat).sum

theorem sum_bits_of_apart {specs : List FieldSpec} (f : Nat → Nat) {all : Finset Nat}
    (hapart : specs.Pairwise fun s t => Disjoint s.bits t.bits)
    (hall : ∀ b, b ∈ all ↔ ∃ s ∈ specs, b ∈ s.bits) :
    (specs.map fun s => ∑ b ∈ s.bits, f b).sum = ∑ b ∈ all, f b := by
  induction specs generalizing all with
  | nil =>
    have hnone : all = ∅ := Finset.eq_empty_of_forall_notMem fun b hb => by
      obtain ⟨s, hs, _⟩ := (hall b).1 hb
      exact absurd hs List.not_mem_nil
    rw [hnone, Finset.sum_empty]
    rfl
  | cons s specs ih =>
    obtain ⟨hfirst, hrest⟩ := List.pairwise_cons.1 hapart
    have hsub : s.bits ⊆ all := fun b hb => (hall b).2 ⟨s, List.mem_cons_self, hb⟩
    -- The bits of the first field are taken out, and the rest belong to the other fields.
    have hothers : ∀ b, b ∈ all \ s.bits ↔ ∃ t ∈ specs, b ∈ t.bits := by
      intro b
      rw [Finset.mem_sdiff, hall]
      constructor
      · rintro ⟨⟨t, ht, hb⟩, hnot⟩
        rcases List.mem_cons.1 ht with rfl | ht
        · exact absurd hb hnot
        · exact ⟨t, ht, hb⟩
      · rintro ⟨t, ht, hb⟩
        exact ⟨⟨t, List.mem_cons_of_mem s ht, hb⟩,
          fun hs => Finset.disjoint_left.1 (hfirst t ht) hs hb⟩
    rw [List.map_cons, List.sum_cons, ih hrest hothers, Nat.add_comm, Finset.sum_sdiff hsub]

/-- **The parts of a value, joined again, are the value**, as far as the fields have its bits. -/
theorem Partitions.joinedReset_eq {specs : List FieldSpec} {width value : Nat}
    (h : Partitions specs width)
    (hparts : ∀ s ∈ specs, s.reset.map (·.toNat) =
      some (value / 2 ^ s.lsb.toNat % 2 ^ s.width.toNat)) :
    joinedReset specs = value % 2 ^ width := by
  have hfield : ∀ s ∈ specs, s.reset.elim 0 (·.toNat) * 2 ^ s.lsb.toNat =
      ∑ b ∈ s.bits, bitAt value b := by
    intro s hs
    obtain ⟨reset, hreset, hvalue⟩ := Option.map_eq_some_iff.1 (hparts s hs)
    rw [hreset, Option.elim_some, hvalue, FieldSpec.bits, sum_bitAt_Ico]
  rw [joinedReset, List.map_congr_left hfield, ← sum_bitAt_range]
  refine sum_bits_of_apart _ h.apart fun b => ?_
  rw [Finset.mem_range, h.covers]

/-! ## Registers of a device -/

/-- The reset value of a register is split among its fields: each has its part of it, and none if
the register has none.  Where the fields have all bits up to a width, the parts are the value
again. -/
structure Model.SplitsReset (m : Model) (h : Nat) (whole : Option UInt32) : Prop where
  parts : ∀ c ∈ m.children h, ∃ spec, m.kind c = .field spec ∧
    spec.reset.map (·.toNat) = whole.map fun value =>
      value.toNat / 2 ^ spec.lsb.toNat % 2 ^ spec.width.toNat
  joined : ∀ value, whole = some value → ∀ width, Partitions ((m.fields h).map (·.2)) width →
    joinedReset ((m.fields h).map (·.2)) = value.toNat % 2 ^ width

namespace Model

variable {m : Model} {h c : Nat} {spec : FieldSpec}

theorem mem_fields : (c, spec) ∈ m.fields h ↔ c ∈ m.children h ∧ m.kind c = .field spec := by
  unfold fields
  rw [List.mem_filterMap]
  constructor
  · rintro ⟨c', hc', heq⟩
    obtain ⟨spec', hspec', hpair⟩ := Option.map_eq_some_iff.1 heq
    obtain ⟨rfl, rfl⟩ := Prod.mk.inj hpair
    refine ⟨hc', ?_⟩
    unfold Kind.field? at hspec'
    split at hspec'
    · next hkind => rw [hkind, Option.some.inj hspec']
    · cases hspec'
  · rintro ⟨hc, hkind⟩
    exact ⟨c, hc, by rw [hkind]; rfl⟩

theorem SplitsReset.of_parts {whole : Option UInt32}
    (hparts : ∀ c ∈ m.children h, ∃ spec, m.kind c = .field spec ∧
      spec.reset.map (·.toNat) = whole.map fun value =>
        value.toNat / 2 ^ spec.lsb.toNat % 2 ^ spec.width.toNat) : m.SplitsReset h whole where
  parts := hparts
  joined := by
    rintro value rfl width hwidth
    refine hwidth.joinedReset_eq fun s hs => ?_
    obtain ⟨⟨c, spec⟩, hfield, rfl⟩ := List.mem_map.1 hs
    obtain ⟨hc, hkind⟩ := mem_fields.1 hfield
    obtain ⟨spec', hkind', hreset⟩ := hparts c hc
    obtain rfl := Kind.field.inj (hkind.symm.trans hkind')
    exact hreset

end Model

namespace Svd

namespace Device

variable {d : Device} {m : Model}

/-- **Reset values are split without loss**, in every register of the device: each field has the
bits of the reset value that holds in the register, wherever the field lies and however wide it is,
and the bits of fields that have all places below a width are the value up to that width. -/
theorem reset_is_split (hok : d.model.outcome = .ok m) :
    d.origins.Agree (fun o h => ∀ r, o = .register r → m.SplitsReset h (d.resetOf r))
      (m.subtree deviceMap) := by
  refine (agree_registers hok).imp fun o h himported r hr => .of_parts fun c hc => ?_
  obtain ⟨o, ho, hmakes⟩ := forall₂_exists_left (himported r hr).fields hc
  obtain ⟨_, _, spec, hkind, htakes⟩ := takes_of_mem_fieldOrigins ho hmakes.2
  exact ⟨spec, hkind, htakes.reset⟩

/-! ### A register in three parts -/

/-- A register whose fields have all of its bits, but not in their order. -/
def tagged : Register :=
  { wholeRegister "R" 0 with
    own := { resetValue := some 0xc0ffee42 }
    fields := [⟨"TAG", none, ⟨24, 8⟩, none, none, none⟩, ⟨"ID", none, ⟨0, 8⟩, none, none, none⟩,
      ⟨"ADDR", none, ⟨8, 16⟩, none, none, none⟩] }

theorem fields_tagged :
    (fun m => (m.fields 2).map (·.2)) <$> (soloBoard tagged).model.outcome =
      .ok [⟨24, 8, .readWrite, none, none, some 0xc0, false⟩,
        ⟨0, 8, .readWrite, none, none, some 0x42, false⟩,
        ⟨8, 16, .readWrite, none, none, some 0xffee, false⟩] := by
  decide +kernel

theorem reset_is_split_tagged :
    ∃ m, (soloBoard tagged).model.outcome = .ok m ∧
      Partitions ((m.fields 2).map (·.2)) 32 ∧
      joinedReset ((m.fields 2).map (·.2)) = 0xc0ffee42 := by
  obtain ⟨m, hok, hfields⟩ := map_eq_ok.1 fields_tagged
  have hpartitions : Partitions ((m.fields 2).map (·.2)) 32 := by
    rw [hfields]
    refine ⟨by decide, fun b => ?_⟩
    simp [FieldSpec.bits]
    omega
  have horigin : (soloBoard tagged).origins.preorder[2]? =
      some (.register ⟨soloBlock tagged, [], tagged⟩) := rfl
  have hreset : (soloBoard tagged).resetOf ⟨soloBlock tagged, [], tagged⟩ = some 0xc0ffee42 := by
    decide +kernel
  have hsplits := of_agree hok (reset_is_split hok) horigin _ rfl
  exact ⟨m, hok, hpartitions, hsplits.joined _ hreset 32 hpartitions⟩

end Device

end Svd

end RegLayer
