/-
# `RegLayer.Proofs.Svd.Origins` — what the nodes of a device stand for

A device is a tree already: peripherals with registers and clusters, clusters with more of them,
and registers with fields.  `Device.origins` writes this tree down, with one place for each node
that the design should have and the part of the device that the node stands for.  It does not say
how anything is imported.

A node takes two things from its origin: its place, that is name, kind, offset and shape
(`Origin.Places`), and the properties that hold there, each from the innermost level that gives it
(`Origin.Inherits`, `inForce`).  An import agrees with the origins in both, at every place
(`agree_device`, by induction over the parts of a device).

The reset value of a field is made by a shift and a mask that each stay in their word.  In the
natural numbers it is the bits from the lowest one of the field on, as many as the field has
(`resetFor_eq`, from `toNat_shiftRight64` and `toNat_fieldMask`), and all later proofs use that.
-/
import Mathlib.Algebra.Group.Nat.Defs
import RegLayer.Proofs.Model.Agree
import RegLayer.Proofs.Svd.Types

namespace RegLayer.Svd

open Declarations

/-! ## Properties in force -/

/-- The properties that hold inside these levels, the innermost one first: each is the one that the
first level gives that gives it at all. -/
def inForce (levels : List Defaults) : Defaults where
  size := levels.findSome? (·.size)
  resetValue := levels.findSome? (·.resetValue)
  access := levels.findSome? (·.access)

theorem findSome?_cons_eq_or {α β : Type} (f : α → Option β) (a : α) (l : List α) :
    (a :: l).findSome? f = (f a).or (l.findSome? f) := by
  rw [List.findSome?_cons]
  cases f a <;> rfl

theorem inForce_cons (own : Defaults) (levels : List Defaults) :
    inForce (own :: levels) = (inForce levels).inherit own := by
  simp only [inForce, Defaults.inherit, findSome?_cons_eq_or]

/-! ## Origins -/

/-- A register with what is around it: its clusters, the innermost one first, and its peripheral. -/
structure Located where
  peripheral : Peripheral
  clusters : List Cluster
  register : Register

/-- What a node of the design stands for. -/
inductive Origin where
  | device
  | peripheral (p : Peripheral)
  | cluster (c : Cluster)
  | register (r : Located)
  /-- A field that is not repeated. -/
  | field (r : Located) (f : Field)
  /-- One of the repetitions of a field, which are counted from zero. -/
  | repeated (r : Located) (f : Field) (repetition : Repetition) (k : Nat)
  /-- The field of a register that lists none. -/
  | whole (r : Located)

def Field.origins (f : Field) (r : Located) : List Origin :=
  match f.repetition with
  | none => [.field r f]
  | some repetition => (List.range repetition.count.toNat).map (.repeated r f repetition)

def Located.fieldOrigins (r : Located) : List Origin :=
  match r.register.fields with
  | [] => [.whole r]
  | fields => fields.flatMap (·.origins r)

mutual

/-- A register or cluster in these clusters of a peripheral, with everything inside it. -/
def Part.origins (p : Peripheral) (clusters : List Cluster) : Part → Tree Origin
  | .register r =>
    .node (.register ⟨p, clusters, r⟩) ((Located.fieldOrigins ⟨p, clusters, r⟩).map (.node · []))
  | .cluster c parts => .node (.cluster c) (Part.originsAll p (c :: clusters) parts)

def Part.originsAll (p : Peripheral) (clusters : List Cluster) : List Part → List (Tree Origin)
  | [] => []
  | q :: qs => Part.origins p clusters q :: Part.originsAll p clusters qs

end

namespace Device

variable (d : Device)

/-- The peripheral that another one is like; there is none unless the other one says so and lists no
registers. -/
def base? (p : Peripheral) : Option Peripheral :=
  match p.base, p.parts with
  | some base, none => d.peripherals.find? (·.name == base)
  | _, _ => none

/-- A peripheral with the registers and clusters that it lists, or those of its base. -/
def peripheralOrigins (p : Peripheral) : Tree Origin :=
  .node (.peripheral p) (Part.originsAll p [] (((d.base? p).getD p).parts.getD []))

/-- **The origins of all nodes**, in the shape of the device. -/
def origins : Tree Origin :=
  .node .device (d.peripherals.map d.peripheralOrigins)

/-- What a peripheral gives to its registers: what it says, then what its base says, then what the
device says. -/
def peripheralLevels (p : Peripheral) : List Defaults :=
  p.own :: ((d.base? p).toList.map (·.own) ++ [d.own])

/-- The levels that count for a register, from the inside out. -/
def levels (r : Located) : List Defaults :=
  r.register.own :: (r.clusters.map (·.own) ++ d.peripheralLevels r.peripheral)

/-- The size of a register, in bits. -/
def sizeOf (r : Located) : UInt32 :=
  ((d.levels r).findSome? (·.size)).getD 32

def resetOf (r : Located) : Option UInt32 :=
  (d.levels r).findSome? (·.resetValue)

def accessOf (r : Located) : Policy :=
  ((d.levels r).findSome? (·.access)).getD .readWrite

end Device

/-! ## Places -/

/-- What is repeated is an array of one dimension, and what is not is none. -/
def Shaped : Option Repetition → Option ArrayShape → Prop :=
  Option.Rel fun r shape =>
    shape.dims.map (·.toNat) = [r.count.toNat] ∧ shape.stride.toNat = r.increment.toNat

/-- What tells a repetition apart: its index if indices are given, and its number otherwise. -/
def Repetition.index? (r : Repetition) (k : Nat) : Option String :=
  match r.indices with
  | none => some k.repr
  | some is => is[k]?

/-- The node is a field of this name with these bits. -/
def IsField (n : Node) (name : String) (lsb width : Nat) : Prop :=
  n.name = name ∧ n.offset = 0 ∧ n.array = none ∧
    ∃ spec, n.kind = .field spec ∧ spec.lsb.toNat = lsb ∧ spec.width.toNat = width

/-- Name, kind, offset and shape of the node are those that follow from its origin. -/
def Origin.Places (d : Device) : Origin → Node → Prop
  | .device, n =>
    n.name = d.name ∧ n.kind = .addrmap d.endianness false ∧ n.offset = 0 ∧ n.array = none
  | .peripheral p, n =>
    n.name = p.name ∧ n.kind = .addrmap d.endianness false ∧ n.offset.toNat = p.address.toNat ∧
      n.array = none
  | .cluster c, n =>
    n.name = bareName c.name ∧ n.kind = .regfile ∧ n.offset.toNat = c.offset.toNat ∧
      Shaped c.repetition n.array
  | .register r, n =>
    n.name = bareName r.register.name ∧ n.kind = .reg (d.sizeOf r) (d.sizeOf r) ∧
      n.offset.toNat = r.register.offset.toNat ∧ Shaped r.register.repetition n.array
  | .field _ f, n => IsField n f.name f.range.lsb.toNat f.range.width.toNat
  | .repeated _ f repetition k, n =>
    ∃ index, repetition.index? k = some index ∧
      IsField n (indexedName f.name index)
        (f.range.lsb.toNat + k * repetition.increment.toNat) f.range.width.toNat
  | .whole r, n => IsField n "value" 0 (d.sizeOf r).toNat

/-! ## Properties -/

/-- A field has the access and the write effect that it gives, or else those of its register; a
given effect can be that there is none.  Its reset value is its part of the register's. -/
structure Device.Takes (d : Device) (r : Located) (access : Option Policy) (onWrite : GivenEffect)
    (spec : FieldSpec) : Prop where
  policy : spec.policy = access.getD (d.accessOf r)
  onWrite : spec.onWrite = (onWrite.or r.register.onWrite).join
  reset : spec.reset.map (·.toNat) = (d.resetOf r).map fun value =>
    value.toNat / 2 ^ spec.lsb.toNat % 2 ^ spec.width.toNat

/-- The node has the properties that hold at its origin. -/
def Origin.Inherits (d : Device) : Origin → Node → Prop
  | .device, _ | .peripheral _, _ | .cluster _, _ => True
  | .register r, n => n.kind = .reg (d.sizeOf r) (d.sizeOf r)
  | .field r f, n | .repeated r f _ _, n =>
    ∃ spec, n.kind = .field spec ∧ d.Takes r f.access f.onWrite spec
  | .whole r, n => ∃ spec, n.kind = .field spec ∧ d.Takes r none none spec

/-- The node is the one that its origin asks for. -/
def Origin.Makes (d : Device) (o : Origin) (n : Node) : Prop :=
  o.Places d n ∧ o.Inherits d n

/-! ## Origins of fields -/

section FieldOrigins

variable {d : Device} {r : Located} {f : Field} {o : Origin} {n : Node}

theorem Field.mem_origins : o ∈ f.origins r ↔ f.repetition = none ∧ o = .field r f ∨
    ∃ repetition, f.repetition = some repetition ∧
      ∃ k < repetition.count.toNat, o = .repeated r f repetition k := by
  unfold origins
  split
  · next hnone => simp [hnone]
  · next repetition hsome => simp [hsome, eq_comm]

theorem Located.mem_fieldOrigins : o ∈ r.fieldOrigins ↔
    r.register.fields = [] ∧ o = .whole r ∨ ∃ f ∈ r.register.fields, o ∈ f.origins r := by
  unfold fieldOrigins
  split
  · next hnone => simp [hnone]
  · next hsome => simpa using fun hnone => (hsome hnone).elim

theorem register_not_mem_fieldOrigins {l : Located} : .register l ∉ r.fieldOrigins := by
  simp [Located.mem_fieldOrigins, Field.mem_origins]

theorem takes_of_mem_fieldOrigins (ho : o ∈ r.fieldOrigins) (hn : o.Inherits d n) :
    ∃ access onWrite spec, n.kind = .field spec ∧ d.Takes r access onWrite spec := by
  rcases Located.mem_fieldOrigins.1 ho with ⟨_, rfl⟩ | ⟨f, _, ho⟩
  · exact ⟨_, _, hn⟩
  rcases Field.mem_origins.1 ho with ⟨_, rfl⟩ | ⟨repetition, _, k, _, rfl⟩
  · exact ⟨_, _, hn⟩
  · exact ⟨_, _, hn⟩

end FieldOrigins

/-! ## Fields -/

section Fields

variable {d : Device} {r : Located} {fd : FieldDefaults} {f : Field} {n : Node}
  {nodes : List Node} {lsb width : UInt32}

/-- The defaults for the fields of a register are what the levels around it give. -/
structure FieldDefaults.Of (fd : FieldDefaults) (d : Device) (r : Located) : Prop where
  width : fd.width = d.sizeOf r
  access : fd.access = d.accessOf r
  onWrite : fd.onWrite = r.register.onWrite.join
  resetValue : fd.resetValue = d.resetOf r

theorem FieldDefaults.of_levels {around : Surroundings} (hr : fd = r.register.fieldDefaults around)
    (hlevels : around.defaults.inherit r.register.own = inForce (d.levels r)) : fd.Of d r := by
  subst hr
  simp only [Register.fieldDefaults]
  rw [hlevels]
  exact ⟨rfl, rfl, rfl, rfl⟩

theorem toNat_shiftRight64 (a : UInt64) (bits : UInt32) :
    ((Checked.shiftRight64? a bits).getD 0).toNat = a.toNat / 2 ^ bits.toNat := by
  unfold Checked.shiftRight64?
  by_cases hbits : bits < 64
  · have hsmall : bits.toNat < 64 := UInt32.lt_iff_toNat_lt.1 hbits
    rw [if_pos hbits, Option.getD_some, UInt64.toNat_shiftRight, UInt32.toNat_toUInt64,
      Nat.mod_eq_of_lt hsmall, Nat.shiftRight_eq_div_pow]
  · have hlarge : 64 ≤ bits.toNat := Nat.le_of_not_lt fun h => hbits (UInt32.lt_iff_toNat_lt.2 h)
    have hgone : a.toNat < 2 ^ bits.toNat :=
      Nat.lt_of_lt_of_le a.toNat_lt (Nat.pow_le_pow_right (by decide) hlarge)
    rw [if_neg hbits, Option.getD_none, Nat.div_eq_of_lt hgone]
    rfl

theorem toNat_fieldMask (width : UInt32) :
    (fieldMask width).toNat = 2 ^ min width.toNat 64 - 1 := by
  unfold fieldMask
  by_cases hw : 64 ≤ width
  · have hlarge : 64 ≤ width.toNat := UInt32.le_iff_toNat_le.1 hw
    rw [if_pos hw, Nat.min_eq_right hlarge]
    rfl
  · have hsmall : width.toNat < 64 := Nat.lt_of_not_le fun h => hw (UInt32.le_iff_toNat_le.2 h)
    have hfits : 2 ^ width.toNat < 2 ^ 64 := Nat.pow_lt_pow_right (by decide) hsmall
    have hpower : ((1 : UInt64) <<< width.toUInt64).toNat = 2 ^ width.toNat := by
      rw [UInt64.toNat_shiftLeft, UInt32.toNat_toUInt64, Nat.mod_eq_of_lt hsmall]
      show 1 <<< width.toNat % 2 ^ 64 = _
      rw [Nat.one_shiftLeft, Nat.mod_eq_of_lt hfits]
    have hone : (1 : UInt64) ≤ 1 <<< width.toUInt64 := by
      rw [UInt64.le_iff_toNat_le, hpower]
      exact Nat.one_le_two_pow
    rw [if_neg hw, UInt64.toNat_sub_of_le _ _ hone, hpower,
      Nat.min_eq_left (Nat.le_of_lt hsmall)]
    rfl

/-- **What shift and mask leave** of a reset value, for all places and widths: a shift by 64 bits or
more leaves nothing, and a mask of 64 bits or more everything. -/
theorem resetFor_eq (fd : FieldDefaults) (lsb width : UInt32) :
    fd.resetFor lsb width = fd.resetValue.map fun value =>
      UInt64.ofNat ((value.toNat >>> lsb.toNat) % (1 <<< min width.toNat 64)) := by
  refine Option.map_congr fun value _ => ?_
  have hpart : value.toNat / 2 ^ lsb.toNat < 2 ^ 64 :=
    Nat.lt_of_le_of_lt (Nat.div_le_self _ _) (Nat.lt_trans value.toNat_lt (by decide))
  have hfits : value.toNat / 2 ^ lsb.toNat % 2 ^ min width.toNat 64 < 2 ^ 64 :=
    Nat.lt_of_le_of_lt (Nat.mod_le _ _) hpart
  rw [← UInt64.toNat_inj, UInt64.toNat_and, toNat_shiftRight64, UInt32.toNat_toUInt64,
    toNat_fieldMask, Nat.and_two_pow_sub_one_eq_mod, Nat.shiftRight_eq_div_pow, Nat.one_shiftLeft,
    UInt64.toNat_ofNat', Nat.mod_eq_of_lt hfits]

theorem toNat_resetFor (value lsb width : UInt32) :
    (UInt64.ofNat ((value.toNat >>> lsb.toNat) % (1 <<< min width.toNat 64))).toNat =
      value.toNat / 2 ^ lsb.toNat % 2 ^ width.toNat := by
  have hvalue : value.toNat < 2 ^ 64 := Nat.lt_trans value.toNat_lt (by decide)
  have hpart : value.toNat / 2 ^ lsb.toNat < 2 ^ 64 :=
    Nat.lt_of_le_of_lt (Nat.div_le_self _ _) hvalue
  have hfits : value.toNat / 2 ^ lsb.toNat % 2 ^ min width.toNat 64 < 2 ^ 64 :=
    Nat.lt_of_le_of_lt (Nat.mod_le _ _) hpart
  rw [Nat.shiftRight_eq_div_pow, Nat.one_shiftLeft, UInt64.toNat_ofNat', Nat.mod_eq_of_lt hfits]
  rcases Nat.le_total width.toNat 64 with hw | hw
  · rw [Nat.min_eq_left hw]
  · -- The value has no bits beyond a word of 64, so a wider field loses none.
    have hwide : value.toNat / 2 ^ lsb.toNat < 2 ^ width.toNat :=
      Nat.lt_of_lt_of_le hpart (Nat.pow_le_pow_right (by decide) hw)
    rw [Nat.min_eq_right hw, Nat.mod_eq_of_lt hpart, Nat.mod_eq_of_lt hwide]

theorem takes_spec (hfd : fd.Of d r) (access : Option Policy) (onWrite : GivenEffect) :
    d.Takes r access onWrite (fd.spec lsb width access onWrite) where
  policy := by rw [← hfd.access]; rfl
  onWrite := by
    show onWrite.getD fd.onWrite = _
    rw [hfd.onWrite]
    cases onWrite <;> rfl
  reset := by
    show (fd.resetFor lsb width).map _ = _
    rw [resetFor_eq, Option.map_map, hfd.resetValue]
    exact Option.map_congr fun value _ => toNat_resetFor value lsb width

theorem makes_nodeAt {name : String} (hfd : fd.Of d r) (h : f.nodeAt fd name lsb = .ok n) :
    IsField n name lsb.toNat f.range.width.toNat ∧
      ∃ spec, n.kind = .field spec ∧ d.Takes r f.access f.onWrite spec := by
  simp only [Field.nodeAt, bind_eq_ok, pure_eq_ok] at h
  obtain ⟨_, _, rfl⟩ := h
  exact ⟨⟨rfl, rfl, rfl, _, rfl, rfl, rfl⟩, _, rfl, takes_spec hfd _ _⟩

theorem index?_of_indices {repetition : Repetition} {is : List String}
    (h : f.indices fd repetition = .ok is) : is.length = repetition.count.toNat ∧
      ∀ k index, is[k]? = some index → repetition.index? k = some index := by
  simp only [Field.indices] at h
  split at h
  · next hnone =>
    obtain rfl := Except.ok.inj h
    refine ⟨by simp, ?_⟩
    intro k index hindex
    rw [List.getElem?_map] at hindex
    obtain ⟨i, hi, rfl⟩ := Option.map_eq_some_iff.1 hindex
    obtain ⟨_, rfl⟩ := List.getElem?_eq_some_iff.1 hi
    rw [Repetition.index?, hnone, List.getElem_range]
  · next hsome =>
    split at h
    · next hlength =>
      obtain rfl := Except.ok.inj h
      refine ⟨hlength, ?_⟩
      intro k index hindex
      rw [Repetition.index?, hsome]
      exact hindex
    · cases h

theorem makes_repeated {repetition : Repetition} {which : String × Nat} (hfd : fd.Of d r)
    (hindex : repetition.index? which.2 = some which.1)
    (hlt : which.2 < repetition.count.toNat) (h : f.repeated fd repetition which = .ok n) :
    (Origin.repeated r f repetition which.2).Makes d n := by
  simp only [Field.repeated, bind_eq_ok, Checked.mul32_eq_ok_iff, Checked.add32_eq_ok_iff] at h
  obtain ⟨step, hstep, lsb, hlsb, h⟩ := h
  have hk : (UInt32.ofNat which.2).toNat = which.2 :=
    UInt32.toNat_ofNat_of_lt (Nat.lt_trans hlt repetition.count.toNat_lt)
  rw [hk] at hstep
  obtain ⟨hfield, htakes⟩ := makes_nodeAt hfd h
  rw [hlsb, hstep] at hfield
  exact ⟨⟨which.1, hindex, hfield⟩, htakes⟩

theorem makes_nodes (hfd : fd.Of d r) (h : f.nodes fd = .ok nodes) :
    List.Forall₂ (Origin.Makes d) (f.origins r) nodes := by
  cases hrepeated : f.repetition with
  | none =>
    simp only [Field.nodes, hrepeated, bind_eq_ok, pure_eq_ok] at h
    obtain ⟨n, hn, rfl⟩ := h
    simp only [Field.origins, hrepeated]
    exact .cons (makes_nodeAt hfd hn) .nil
  | some repetition =>
    simp only [Field.nodes, hrepeated, bind_eq_ok] at h
    obtain ⟨is, his, hnodes⟩ := h
    obtain ⟨hlength, hindex⟩ := index?_of_indices his
    -- The repetitions are counted along their indices.
    have hcount : List.range repetition.count.toNat = is.zipIdx.map Prod.snd := by
      rw [List.zipIdx_map_snd, hlength, List.range_eq_range']
    have hwhich : ∀ which ∈ is.zipIdx, repetition.index? which.2 = some which.1 ∧
        which.2 < repetition.count.toNat := by
      intro which hmem
      have hget := List.mem_zipIdx_iff_getElem?.1 hmem
      refine ⟨hindex _ _ hget, ?_⟩
      rw [← hlength]
      exact (List.getElem?_eq_some_iff.1 hget).1
    simp only [Field.origins, hrepeated]
    rw [hcount, List.map_map, List.forall₂_map_left_iff]
    refine ((List.forall₂_and_left _ _).2 ⟨hwhich, mapM_eq_ok.1 hnodes⟩).imp ?_
    intro which n ⟨⟨hindex, hlt⟩, hn⟩
    exact makes_repeated hfd hindex hlt hn

theorem makes_fieldNodes (hfd : fd.Of d r) (h : r.register.fieldNodes fd = .ok nodes) :
    List.Forall₂ (Origin.Makes d) r.fieldOrigins nodes := by
  cases hfields : r.register.fields with
  | nil =>
    simp only [Register.fieldNodes, hfields] at h
    obtain rfl := Except.ok.inj h
    simp only [Located.fieldOrigins, hfields]
    have hwhole : (Origin.whole r).Makes d fd.whole :=
      ⟨⟨rfl, rfl, rfl, _, rfl, rfl, by rw [← hfd.width]; rfl⟩, _, rfl, takes_spec hfd none none⟩
    exact .cons hwhole .nil
  | cons f fs =>
    simp only [Register.fieldNodes, hfields, bind_eq_ok, pure_eq_ok] at h
    obtain ⟨nss, hnss, rfl⟩ := h
    simp only [Located.fieldOrigins, hfields]
    rw [← List.flatMap_id]
    refine List.rel_flatMap (mapM_eq_ok.1 hnss) ?_
    intro f ns hns
    exact makes_nodes hfd hns

theorem agree_leaves {os : List Origin} (h : List.Forall₂ (Origin.Makes d) os nodes) :
    List.Forall₂ (Tree.Agree (Origin.Makes d)) (os.map (.node · [])) (nodes.map (.node · [])) := by
  rw [List.forall₂_map_left_iff, List.forall₂_map_right_iff]
  exact h.imp fun _ _ hmakes => .node hmakes .nil

end Fields

/-! ## Registers and clusters -/

section Parts

variable {d : Device} {p : Peripheral}

section Levels

variable {clusters : List Cluster} {around : Surroundings}

theorem fieldDefaults_of (r : Register)
    (hlevels : around.defaults = inForce (clusters.map (·.own) ++ d.peripheralLevels p)) :
    (r.fieldDefaults around).Of d ⟨p, clusters, r⟩ := by
  refine FieldDefaults.of_levels rfl ?_
  rw [hlevels, ← inForce_cons]
  rfl

theorem defaults_inside (c : Cluster) (scope : TypeScope)
    (hlevels : around.defaults = inForce (clusters.map (·.own) ++ d.peripheralLevels p)) :
    (c.inside around scope).defaults =
      inForce ((c :: clusters).map (·.own) ++ d.peripheralLevels p) := by
  show around.defaults.inherit c.own = _
  rw [hlevels, ← inForce_cons]
  rfl

end Levels

theorem shaped (repetition : Option Repetition) :
    Shaped repetition (repetition.map (·.shape)) := by
  cases repetition with
  | none => exact .none
  | some r => exact .some ⟨by simp [Repetition.shape], by simp [Repetition.shape]⟩

mutual

/-- **What is imported for a part agrees with its origins**, where the properties around the part
are those of the levels around it. -/
theorem agree_part : ∀ (q : Part) {clusters : List Cluster} {around : Surroundings}
    {known later : Declarations} {t : Tree Node},
    around.defaults = inForce (clusters.map (·.own) ++ d.peripheralLevels p) →
      Gives (Part.tree around q) known t later →
      (Part.origins p clusters q).Agree (Origin.Makes d) t
  | .register r, clusters, around, known, later, t, hlevels, h => by
    obtain ⟨inner, nodes, _, hnodes, rfl⟩ := gives_register h
    have hfd := fieldDefaults_of r hlevels
    rw [Part.origins]
    refine .node ⟨⟨rfl, ?_, by simp [Register.node], shaped r.repetition⟩, ?_⟩
      (agree_leaves (makes_fieldNodes hfd hnodes))
    · show Kind.reg (r.fieldDefaults around).width (r.fieldDefaults around).width = _
      rw [hfd.width]
    · show Kind.reg (r.fieldDefaults around).width (r.fieldDefaults around).width = _
      rw [hfd.width]
  | .cluster c parts, clusters, around, known, later, t, hlevels, h => by
    obtain ⟨scope, mid, ts, _, hts, rfl⟩ := gives_cluster h
    rw [Part.origins]
    refine .node ⟨⟨rfl, rfl, by simp [Cluster.node], shaped c.repetition⟩, trivial⟩ ?_
    exact agree_parts parts (defaults_inside c scope hlevels) hts

theorem agree_parts : ∀ (qs : List Part) {clusters : List Cluster} {around : Surroundings}
    {known later : Declarations} {ts : List (Tree Node)},
    around.defaults = inForce (clusters.map (·.own) ++ d.peripheralLevels p) →
      Gives (Part.trees around qs) known ts later →
      List.Forall₂ (Tree.Agree (Origin.Makes d)) (Part.originsAll p clusters qs) ts
  | [], _, _, _, _, _, _, h => by
    obtain ⟨rfl, _⟩ := gives_pure.1 h
    exact .nil
  | q :: qs, _, _, _, _, _, hlevels, h => by
    obtain ⟨t, mid, rest, ht, hrest, rfl⟩ := gives_trees_cons h
    exact .cons (agree_part q hlevels ht) (agree_parts qs hlevels hrest)

end

end Parts

/-! ## Peripherals and the device -/

namespace Device

variable {d : Device} {p source : Peripheral} {known later : Declarations} {t : Tree Node}

theorem base?_of_source (h : d.source p = .ok source) :
    d.base? p = none ∧ source = p ∨ d.base? p = some source := by
  cases hbase : p.base with
  | none =>
    simp only [Device.source, hbase] at h
    exact Or.inl ⟨by simp only [base?, hbase], (Except.ok.inj h).symm⟩
  | some base =>
    cases hparts : p.parts with
    | some parts =>
      simp only [Device.source, hbase, hparts] at h
      exact Or.inl ⟨by simp only [base?, hbase, hparts], (Except.ok.inj h).symm⟩
    | none =>
      refine Or.inr ?_
      simp only [base?, hbase, hparts]
      exact (found_of_source hbase hparts h).1

theorem getD_base?_of_source (h : d.source p = .ok source) : (d.base? p).getD p = source := by
  rcases base?_of_source h with ⟨hnone, rfl⟩ | hsome
  · rw [hnone]
    rfl
  · rw [hsome]
    rfl

theorem defaults_eq (d : Device) : d.defaults = inForce [d.own] := by
  rw [inForce_cons]
  rfl

theorem defaultsIn_eq (h : d.source p = .ok source) :
    d.defaultsIn source p = inForce (d.peripheralLevels p) := by
  rcases base?_of_source h with ⟨hnone, rfl⟩ | hsome
  · -- Without a base the registers are its own, and inheriting from itself changes nothing.
    rw [defaultsIn, Defaults.inherit_self, defaults_eq, ← inForce_cons, peripheralLevels, hnone]
    rfl
  · rw [defaultsIn, defaults_eq, ← inForce_cons, ← inForce_cons, peripheralLevels, hsome]
    rfl

theorem agree_peripheral (h : Gives (d.peripheralTree p) known t later) :
    (d.peripheralOrigins p).Agree (Origin.Makes d) t := by
  obtain ⟨source, scope, mid, ts, hsource, _, hts, rfl⟩ := gives_peripheral h
  rw [peripheralOrigins, getD_base?_of_source hsource]
  refine .node ⟨⟨rfl, rfl, by simp [peripheralNode], rfl⟩, trivial⟩ ?_
  exact agree_parts _ (defaultsIn_eq hsource) hts

/-- **What is imported for a device agrees with its origins.** -/
theorem agree_device (h : Gives d.tree known t later) : d.origins.Agree (Origin.Makes d) t := by
  obtain ⟨scope, mid, ts, _, _, hperipherals, rfl⟩ := gives_device h
  refine .node ⟨⟨rfl, rfl, rfl, rfl⟩, trivial⟩ ?_
  rw [List.forall₂_map_left_iff]
  refine hperipherals.imp ?_
  intro p t ⟨_, _, ht, _⟩
  exact agree_peripheral ht

end Device

end RegLayer.Svd
