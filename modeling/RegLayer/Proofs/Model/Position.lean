/-
# `RegLayer.Proofs.Model.Position` — paths and addresses come in parts

Where a node is in its tree is said by a path, the names from the top down to it, and by an
address, the sum of the offsets.  Both are made from the lineage of the node, and a lineage is the
climb to one of its nodes and then the lineage of that node (`lineage_eq_climb_append`).  So a
position is the position of an ancestor and what comes below the ancestor (`relPath_append`,
`offsets_lineage`).

Every path is there.  An address is there unless the sum leaves 64 bits, and then nothing else can
go wrong (`address_eq_overflow_iff`); if the address of a node is there, so is that of everything
above it.  `positions_compose` puts this together, for every model, node and separator.
-/
import RegLayer.Proofs.Model.Built
import RegLayer.Proofs.Model.Lineage
import RegLayer.Proofs.Outcome
import RegLayer.Proofs.Text.Join

namespace RegLayer.Model

variable {m : Model} {a h : Nat}

/-! ## Paths -/

theorem relPath_of_not_mem {stop : Option Nat} (hstop : ∀ a ∈ m.ancestors h, some a ≠ stop)
    (sep : String) :
    m.relPath h stop sep = Text.join sep ((m.lineage h).map m.name).reverse := by
  rw [relPath_eq_join_climb, climb_of_not_mem hstop]

theorem relPath_none (h : Nat) (sep : String) :
    m.relPath h none sep = Text.join sep ((m.lineage h).map m.name).reverse :=
  relPath_of_not_mem (fun a _ => Option.some_ne_none a) sep

/-- **A path is the path of an ancestor and then the path from there.** -/
theorem relPath_append (ha : a ∈ m.ancestors h) (sep : String) :
    m.relPath h none sep = m.relPath a none sep ++ sep ++ m.relPath h (some a) sep := by
  have habove : ((m.lineage a).map m.name).reverse ≠ [] := by simp [lineage]
  have hbelow : ((m.climb h (some a)).map m.name).reverse ≠ [] := by simp [climb]
  rw [relPath_none, relPath_none, relPath_eq_join_climb, ← Text.join_append habove hbelow,
    ← List.reverse_append, ← List.map_append, ← lineage_eq_climb_append ha]

/-! ## Addresses -/

/-- The offsets of these nodes, added up without a bound. -/
def offsets (m : Model) (hs : List Nat) : Nat :=
  (hs.map fun a => (m.node a).offset.toNat).sum

theorem offsets_append (hs gs : List Nat) :
    m.offsets (hs ++ gs) = m.offsets hs + m.offsets gs := by
  rw [offsets, List.map_append, List.sum_append]
  rfl

/-- The offsets of a lineage are those of an ancestor's lineage and those below the ancestor. -/
theorem offsets_lineage (ha : a ∈ m.ancestors h) :
    m.offsets (m.lineage h) =
      m.offsets (m.lineage a) + m.offsets ((m.lineage h).filter fun b => a ∈ m.ancestors b) := by
  rw [filter_lineage_eq_climb ha, Nat.add_comm, ← offsets_append, ← lineage_eq_climb_append ha]

/-- **An address is the sum of the offsets from the node upwards**, if that has 64 bits. -/
theorem address_eq_ok_iff {v : UInt64} :
    m.address h = .ok v ↔ v.toNat = m.offsets (m.lineage h) := by
  have hlineage : m.offsets (m.lineage h) =
      (m.node h).offset.toNat + m.offsets (m.ancestors h) := by
    rw [offsets, lineage, List.map_cons, List.sum_cons]
    rfl
  have habove : ∀ s, Checked.sum ((m.ancestors h).map fun a => (m.node a).offset) = .ok s ↔
      s.toNat = m.offsets (m.ancestors h) := by
    intro s
    rw [Checked.sum_eq_ok_iff, List.map_map]
    rfl
  rw [address, bind_eq_ok, hlineage]
  constructor
  · rintro ⟨s, hs, hv⟩
    rw [Checked.add64_eq_ok_iff.1 hv, (habove s).1 hs]
  · intro hv
    have hlt : m.offsets (m.ancestors h) < UInt64.size := by
      have hvlt : v.toNat < UInt64.size := v.toNat_lt
      omega
    have hs : (UInt64.ofNat (m.offsets (m.ancestors h))).toNat = m.offsets (m.ancestors h) :=
      UInt64.toNat_ofNat_of_lt hlt
    exact ⟨_, (habove _).2 hs, Checked.add64_eq_ok_iff.2 (by rw [hv, hs])⟩

theorem exists_address (hlt : m.offsets (m.lineage h) < UInt64.size) :
    ∃ v, m.address h = .ok v ∧ v.toNat = m.offsets (m.lineage h) := by
  have hsum := UInt64.toNat_ofNat_of_lt hlt
  exact ⟨_, address_eq_ok_iff.2 hsum, hsum⟩

theorem onlyOverflow_address (m : Model) (h : Nat) : OnlyOverflow (m.address h) :=
  (Checked.onlyOverflow_sum _).bind fun _ => Checked.onlyOverflow_within _

/-- **An address is missing exactly where the sum of the offsets leaves 64 bits.** -/
theorem address_eq_overflow_iff :
    m.address h = .error (.abort .overflow) ↔ UInt64.size ≤ m.offsets (m.lineage h) := by
  constructor
  · intro hover
    refine Nat.not_lt.1 fun hlt => ?_
    obtain ⟨v, hv, _⟩ := exists_address hlt
    rw [hover] at hv
    cases hv
  · intro hsize
    cases haddress : m.address h with
    | ok v =>
      have hv := address_eq_ok_iff.1 haddress
      have hlt : v.toNat < UInt64.size := v.toNat_lt
      omega
    | error e => rw [onlyOverflow_address m h e haddress]

theorem exists_address_of_mem_ancestors {v : UInt64} (ha : a ∈ m.ancestors h)
    (hv : m.address h = .ok v) :
    ∃ w, m.address a = .ok w ∧
      v.toNat = w.toNat + m.offsets ((m.lineage h).filter fun b => a ∈ m.ancestors b) := by
  have hsum := address_eq_ok_iff.1 hv
  rw [offsets_lineage ha] at hsum
  have hlt : m.offsets (m.lineage a) < UInt64.size := by
    have hvlt : v.toNat < UInt64.size := v.toNat_lt
    omega
  obtain ⟨w, hw, hsumw⟩ := exists_address hlt
  exact ⟨w, hw, by rw [hsum, hsumw]⟩

/-- **Positions compose.**  The path of a node is the path of any node above it, the separator and
the path from there; a start that is not above the node is no other start than the top.  A node has
no address if and only if the offsets from it upwards add up to a number of more than 64 bits; if
it has one it is that sum, and the address of any node above it and the offsets below that node
make it up. -/
theorem positions_compose (m : Model) (h : Nat) (sep : String) :
    (∀ a ∈ m.ancestors h,
      m.relPath h none sep = m.relPath a none sep ++ sep ++ m.relPath h (some a) sep) ∧
    (∀ f, f ∉ m.ancestors h → m.relPath h (some f) sep = m.relPath h none sep) ∧
    (m.address h = .error (.abort .overflow) ↔ UInt64.size ≤ m.offsets (m.lineage h)) ∧
    (∀ v, m.address h = .ok v ↔ v.toNat = m.offsets (m.lineage h)) ∧
    ∀ a ∈ m.ancestors h, ∀ v, m.address h = .ok v → ∃ w, m.address a = .ok w ∧
      v.toNat = w.toNat + m.offsets ((m.lineage h).filter fun b => a ∈ m.ancestors b) := by
  refine ⟨fun a ha => relPath_append ha sep, ?_, address_eq_overflow_iff,
    fun v => address_eq_ok_iff, fun a ha v hv => exists_address_of_mem_ancestors ha hv⟩
  intro f hf
  have hstop : ∀ a ∈ m.ancestors h, some a ≠ some f := by
    intro a ha heq
    exact hf (Option.some.inj heq ▸ ha)
  rw [relPath_of_not_mem hstop, relPath_none]

/-- A map with a register file that holds two registers, the second of them so far out that it has
no address. -/
def farRegister : Model :=
  ofForest .empty [.node { name := "soc", kind := .addrmap .little false, offset := 0x40000000 }
    [.node { name := "blk", kind := .regfile, offset := 0x100 }
      [.node { name := "ctrl", kind := .reg 32 32, offset := 0x8 } [],
        .node { name := "far", kind := .reg 32 32, offset := 0xffffffffbfffff00 } []]]]

/-- The positions of the first register and the map above it compose; the second register stands at
the first address that 64 bits do not reach. -/
theorem positions_compose_farRegister :
    farRegister.relPath 2 none "__" = "soc" ++ "__" ++ "blk__ctrl" ∧
      farRegister.relPath 2 (some 3) "__" = "soc__blk__ctrl" ∧
      (∃ v w, farRegister.address 2 = .ok v ∧ farRegister.address 0 = .ok w ∧
        v.toNat = w.toNat + 0x108) ∧
      farRegister.address 3 = .error (.abort .overflow) := by
  have habove : 0 ∈ farRegister.ancestors 2 := by decide +kernel
  have haddress : farRegister.address 2 = .ok 0x40000108 := by decide +kernel
  obtain ⟨hpath, hstop, _, _, hsum⟩ := positions_compose farRegister 2 "__"
  obtain ⟨_, _, hover, _, _⟩ := positions_compose farRegister 3 "__"
  obtain ⟨w, hw, hvw⟩ := hsum 0 habove _ haddress
  refine ⟨?_, ?_, ⟨_, w, haddress, hw, ?_⟩, hover.2 (by decide +kernel)⟩
  · rw [hpath 0 habove]
    decide +kernel
  · rw [hstop 3 (by decide +kernel)]
    decide +kernel
  · have hbelow : farRegister.offsets
        ((farRegister.lineage 2).filter fun b => 0 ∈ farRegister.ancestors b) = 0x108 := by
      decide +kernel
    rw [hvw, hbelow]

end RegLayer.Model
