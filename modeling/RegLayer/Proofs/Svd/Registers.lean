/-
# `RegLayer.Proofs.Svd.Registers` — registers of a design and the fields below them

A register of the design comes from a register of the device, and just below it are the fields of
that one, in order (`agree_registers`).  A device that was imported is sound, so all of these
fields lie inside their registers (`fields_inside`).

The field of a register that lists none is not checked; it has all bits of the register, and so it
has none where the register has none (`field_can_be_empty`).  In a register with bits every field
has some.

Taken as given: the device was imported.
-/
import RegLayer.Proofs.Svd.Totality

namespace RegLayer.Svd

/-! ## Below a register -/

section Parts

variable {p : Peripheral}

mutual

theorem children_of_register : ∀ (q : Part) {clusters : List Cluster} {s : Tree Origin},
    s.Subtree (Part.origins p clusters q) → ∀ r, s.label = .register r →
      s.children = r.fieldOrigins.map (.node · [])
  | .register r₀, _, s, hs, r, hr => by
    rw [Part.origins] at hs
    rcases Tree.subtree_node_iff.1 hs with rfl | ⟨leaf, hleaf, hs⟩
    · obtain rfl := Origin.register.inj hr
      rfl
    · obtain ⟨o, ho, rfl⟩ := List.mem_map.1 hleaf
      rcases Tree.subtree_node_iff.1 hs with rfl | ⟨_, hnone, _⟩
      · obtain rfl : o = .register r := hr
        exact absurd ho register_not_mem_fieldOrigins
      · exact absurd hnone List.not_mem_nil
  | .cluster c parts, _, s, hs, r, hr => by
    rw [Part.origins] at hs
    rcases Tree.subtree_node_iff.1 hs with rfl | ⟨t, ht, hs⟩
    · cases hr
    · exact children_of_register_all parts t ht hs r hr

theorem children_of_register_all : ∀ (qs : List Part) {clusters : List Cluster}
    {s : Tree Origin}, ∀ t ∈ Part.originsAll p clusters qs, s.Subtree t →
      ∀ r, s.label = .register r → s.children = r.fieldOrigins.map (.node · [])
  | [], _, _, t, ht, _, _, _ => by
    rw [Part.originsAll] at ht
    exact absurd ht List.not_mem_nil
  | q :: qs, _, _, t, ht, hs, r, hr => by
    rw [Part.originsAll] at ht
    rcases List.mem_cons.1 ht with rfl | ht
    · exact children_of_register q hs r hr
    · exact children_of_register_all qs t ht hs r hr

end

end Parts

/-! ## Origins of registers and fields -/

section Origins

variable {d : Device} {r : Located} {f : Field} {o : Origin} {n : Node}

theorem Origin.Places.exists_register {width accessWidth : UInt32} (h : o.Places d n)
    (hreg : n.kind = .reg width accessWidth) : ∃ r, o = .register r := by
  cases o with
  | register r => exact ⟨r, rfl⟩
  | device | peripheral _ | cluster _ => exact nomatch h.2.1.symm.trans hreg
  | field _ _ | whole _ =>
    obtain ⟨_, _, _, spec, hkind, _⟩ := h
    exact nomatch hkind.symm.trans hreg
  | repeated _ _ _ _ =>
    obtain ⟨_, _, _, _, _, spec, hkind, _⟩ := h
    exact nomatch hkind.symm.trans hreg

theorem Field.bits_of_mem_origins (ho : o ∈ f.origins r) (hn : o.Places d n) :
    ∃ k < f.count, ∃ spec, n.kind = .field spec ∧
      spec.lsb.toNat = f.range.lsb.toNat + k * f.step ∧
      spec.width.toNat = f.range.width.toNat := by
  rcases Field.mem_origins.1 ho with ⟨hnone, rfl⟩ | ⟨repetition, hsome, k, hk, rfl⟩
  · obtain ⟨_, _, _, spec, hkind, hlsb, hwidth⟩ := hn
    exact ⟨0, by simp [Field.count, hnone], spec, hkind, by omega, hwidth⟩
  · obtain ⟨_, _, _, _, _, spec, hkind, hlsb, hwidth⟩ := hn
    refine ⟨k, ?_, spec, hkind, ?_, hwidth⟩
    · simpa [Field.count, hsome] using hk
    · simpa [Field.step, hsome] using hlsb

end Origins

namespace Device

variable {d : Device} {m : Model}

theorem children_of_register {s : Tree Origin} (hs : s.Subtree d.origins) {r : Located}
    (hr : s.label = .register r) : s.children = r.fieldOrigins.map (.node · []) := by
  rw [origins] at hs
  rcases Tree.subtree_node_iff.1 hs with rfl | ⟨t, ht, hs⟩
  · cases hr
  · obtain ⟨p, _, rfl⟩ := List.mem_map.1 ht
    rw [peripheralOrigins] at hs
    rcases Tree.subtree_node_iff.1 hs with rfl | ⟨t, ht, hs⟩
    · cases hr
    · exact children_of_register_all _ t ht hs r hr

/-- The register with this handle comes from that register of the device: it is the node that the
register asks for, and the nodes just below it are those that the fields ask for. -/
structure ComesFrom (d : Device) (m : Model) (h : Nat) (r : Located) : Prop where
  mem : r ∈ d.registers
  register : (Origin.register r).Makes d (m.node h)
  fields : List.Forall₂ (fun o c => o.Makes d (m.node c)) r.fieldOrigins (m.children h)

/-- **Registers come from registers**, and their fields from fields. -/
theorem agree_registers (hok : d.model.outcome = .ok m) :
    d.origins.Agree (fun o h => ∀ r, o = .register r → d.ComesFrom m h r)
      (m.subtree deviceMap) := by
  refine (agree_design hok).imp_parts fun s v hs hv hagree r hr => ?_
  have hmakes : s.label.Makes d (m.node v.label) := hagree.label
  rw [hr] at hmakes
  refine ⟨?_, hmakes, ?_⟩
  · rw [mem_registers, ← hr]
    exact hs.label_mem
  · have hbelow := hagree.children
    rw [children_of_register hs hr, Model.eq_subtree_of_subtree hv, Model.subtree_eq,
      Tree.children_node, List.forall₂_map_left_iff, List.forall₂_map_right_iff] at hbelow
    refine hbelow.imp fun o c hoc => ?_
    have hlabel := hoc.label
    rwa [Model.label_subtree] at hlabel

/-! ## Registers by their handles -/

theorem preorder_deviceMap (hok : d.model.outcome = .ok m) :
    (m.subtree deviceMap).preorder = List.range m.size := by
  obtain ⟨whole, known, _, rfl⟩ := gives_of_model hok
  have horder := Model.flatMap_preorder_roots known [whole]
  rw [Model.roots_ofForest_singleton, List.flatMap_singleton] at horder
  exact horder

theorem of_agree {S : Origin → Nat → Prop} (hok : d.model.outcome = .ok m)
    (hagree : d.origins.Agree S (m.subtree deviceMap)) {h : Nat} {o : Origin}
    (ho : d.origins.preorder[h]? = some o) : S o h := by
  obtain ⟨g, hg, hS⟩ := forall₂_getElem? hagree.forall₂_preorder ho
  rw [preorder_deviceMap hok] at hg
  obtain ⟨_, rfl⟩ := List.getElem?_eq_some_iff.1 hg
  rwa [List.getElem_range] at hS

theorem exists_origin (hok : d.model.outcome = .ok m) {h : Nat} (hh : h < m.size) :
    ∃ o, d.origins.preorder[h]? = some o := by
  have hlength := (agree_design hok).forall₂_preorder.length_eq
  rw [preorder_deviceMap hok, List.length_range] at hlength
  exact ⟨_, List.getElem?_eq_getElem (hlength ▸ hh)⟩

theorem exists_comesFrom (hok : d.model.outcome = .ok m) {h : Nat} {width accessWidth : UInt32}
    (hreg : m.kind h = .reg width accessWidth) : ∃ r, d.ComesFrom m h r := by
  have hh : h < m.size := Model.lt_size_of_kind_ne (by rw [hreg]; exact Kind.noConfusion)
  obtain ⟨o, ho⟩ := exists_origin hok hh
  have hmakes : o.Makes d (m.node h) := of_agree hok (agree_design hok) ho
  obtain ⟨r, rfl⟩ := hmakes.1.exists_register hreg
  exact ⟨r, of_agree hok (agree_registers hok) ho r rfl⟩

/-! ## Bits -/

theorem ComesFrom.kind {h : Nat} {r : Located} (hr : d.ComesFrom m h r) :
    m.kind h = .reg (d.sizeOf r) (d.sizeOf r) :=
  hr.register.1.2.1

/-- **Every field lies inside its register**, be it described, repeated, or the field of a register
that lists none; and it has bits if the register has. -/
theorem fields_inside (hok : d.model.outcome = .ok m) {h : Nat} {width accessWidth : UInt32}
    (hreg : m.kind h = .reg width accessWidth) {c : Nat} (hc : c ∈ m.children h) :
    ∃ spec, m.kind c = .field spec ∧ spec.lsb.toNat + spec.width.toNat ≤ width.toNat ∧
      (0 < width.toNat → 0 < spec.width.toNat) := by
  obtain ⟨r, hr⟩ := exists_comesFrom hok hreg
  obtain ⟨rfl, _⟩ := Kind.reg.inj (hr.kind.symm.trans hreg)
  obtain ⟨o, ho, hmakes⟩ := forall₂_exists_left hr.fields hc
  have hfits : d.Fits r := (sound_of_model hok).registers r hr.mem
  rcases Located.mem_fieldOrigins.1 ho with ⟨_, rfl⟩ | ⟨f, hf, ho⟩
  · obtain ⟨_, _, _, spec, hkind, hlsb, hwidth⟩ := hmakes.1
    exact ⟨spec, hkind, by omega, by omega⟩
  · obtain ⟨k, hk, spec, hkind, hlsb, hwidth⟩ := Field.bits_of_mem_origins ho hmakes.1
    obtain ⟨hpos, hend⟩ := (hfits f hf).inside k hk
    unfold Field.endOf at hend
    exact ⟨spec, hkind, by omega, by omega⟩

/-! ### A register without bits -/

/-- A register of no bits that lists no fields. -/
def emptyBoard : Device :=
  soloBoard { wholeRegister "R" 0 with own := { size := some 0 } }

theorem model_emptyBoard :
    (fun m => (m.kind 2, m.children 2, m.kind 3)) <$> emptyBoard.model.outcome =
      .ok (.reg 0 0, [3], .field ⟨0, 0, .readWrite, none, none, none, false⟩) := by
  decide +kernel

/-- **A field can be empty**: the field of a register that lists none is not checked. -/
theorem field_can_be_empty :
    ¬∀ (d : Device) (m : Model), d.model.outcome = .ok m →
      ∀ (h : Nat) (width accessWidth : UInt32), m.kind h = .reg width accessWidth →
        ∀ c ∈ m.children h, ∃ spec, m.kind c = .field spec ∧ 1 ≤ spec.width.toNat ∧
          spec.lsb.toNat + spec.width.toNat ≤ width.toNat := by
  intro hall
  obtain ⟨m, hok, hnodes⟩ := map_eq_ok.1 model_emptyBoard
  obtain ⟨hreg, hbelow⟩ := Prod.mk.inj hnodes
  obtain ⟨hchildren, hfield⟩ := Prod.mk.inj hbelow
  have hc : 3 ∈ m.children 2 := hchildren ▸ List.mem_singleton_self 3
  obtain ⟨spec, hkind, hpos, _⟩ := hall emptyBoard m hok 2 0 0 hreg 3 hc
  obtain rfl := Kind.field.inj (hfield.symm.trans hkind)
  exact absurd hpos (by decide)

theorem model_spiBoard_fields :
    (fun m => (m.kind 2, m.children 2)) <$> spiBoard.model.outcome =
      .ok (.reg 16 16, [3, 4, 5]) := by
  decide +kernel

/-- A field and an array of two in a register of 16 bits. -/
theorem fields_inside_spiBoard :
    ∃ m, spiBoard.model.outcome = .ok m ∧ m.children 2 = [3, 4, 5] ∧
      ∀ c ∈ m.children 2, ∃ spec, m.kind c = .field spec ∧
        spec.lsb.toNat + spec.width.toNat ≤ 16 ∧ 0 < spec.width.toNat := by
  obtain ⟨m, hok, hnodes⟩ := map_eq_ok.1 model_spiBoard_fields
  obtain ⟨hreg, hchildren⟩ := Prod.mk.inj hnodes
  refine ⟨m, hok, hchildren, fun c hc => ?_⟩
  obtain ⟨spec, hkind, hend, hpos⟩ := fields_inside hok hreg hc
  exact ⟨spec, hkind, hend, hpos (by decide)⟩

end Device

end RegLayer.Svd
