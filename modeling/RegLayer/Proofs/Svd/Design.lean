/-
# `RegLayer.Proofs.Svd.Design` — the design of a device, node by node

The design of a device is planted from a single tree, and that tree agrees with the origins of its
nodes (`agree_device`).  So the design has one node for each origin and no others, in the shape of
the device (`design_complete`); and since an origin knows all levels around a register, however
deep the clusters go, every register and field has the properties that hold there
(`properties_in_force`).

The two results are the two halves of one agreement, and neither mentions the import: a reader of
them needs the device, its origins, and what a node takes from its origin.
-/
import RegLayer.Proofs.Model.Numbered
import RegLayer.Proofs.Svd.Origins

namespace RegLayer.Svd.Device

variable {d : Device} {m : Model}

theorem agree_design (hok : d.model.outcome = .ok m) :
    d.origins.Agree (fun o h => o.Makes d (m.node h)) (m.subtree deviceMap) := by
  obtain ⟨whole, known, hgives, rfl⟩ := gives_of_model hok
  refine Model.agree_subtree ?_
  rw [deviceMap, Model.unfold_zero_ofForest]
  exact agree_device hgives

/-- **Properties reach every depth.**  The width of a register, and its access width, is the first
size that is given from the register outwards: by itself, by its clusters, the innermost one first,
by its peripheral, by the base of its peripheral, and by the device; or it is 32.  The access and
the reset value of the register are found in the same way, each by itself.  A field has its own
access and write effect, where given, and the register's otherwise; and its reset value is its part
of the register's.  The field of a register that lists none takes everything from the register. -/
theorem properties_in_force (hok : d.model.outcome = .ok m) :
    d.origins.Agree (fun o h => o.Inherits d (m.node h)) (m.subtree deviceMap) :=
  (agree_design hok).imp fun _ _ hmakes => hmakes.2

/-! ### Two interfaces of one kind -/

/-- A register in two clusters, of which the inner one gives a size. -/
def ringData : Register :=
  wholeRegister "DATA" 4

def ring : Cluster :=
  ⟨"RING", none, 8, { size := some 8 }, none⟩

def channels : Cluster :=
  ⟨"DMA[%s]", none, 0x40, {}, some ⟨4, 0x10, none⟩⟩

/-- An interface with a control register, which has a field and an array of two, and with an array
of clusters. -/
def spi : Peripheral where
  name := "SPI0"
  base := none
  description := none
  address := 0x1000
  own := { size := some 16 }
  parts := some
    [.register { wholeRegister "CTRL" 0 with
        own := { resetValue := some 0x11 }
        fields :=
          [⟨"EN", none, ⟨0, 1⟩, none, some none, none⟩,
            ⟨"CS%s", none, ⟨4, 1⟩, some .writeOnly, none, some ⟨2, 2, some ["A", "B"]⟩⟩]
        onWrite := some (some .oneClears) },
      .cluster channels [.cluster ring [.register ringData]]]

/-- An interface that is like the first, but can be written. -/
def spiCopy : Peripheral :=
  { spi with
    name := "SPI1", base := some "SPI0", address := 0x2000, own := { access := some .readWrite }
    parts := none }

def spiBoard : Device where
  name := "SOC"
  description := none
  endianness := .little
  own := { access := some .readOnly }
  peripherals := [spi, spiCopy]

theorem model_spiBoard : spiBoard.model.outcome.isOk = true := by
  decide +kernel

/-- In the second interface the size still comes from the inner cluster, and the access from the
interface itself. -/
theorem properties_in_force_spiBoard :
    ∃ m, spiBoard.model.outcome = .ok m ∧
      spiBoard.origins.Agree (fun o h => o.Inherits spiBoard (m.node h)) (m.subtree deviceMap) ∧
      spiBoard.sizeOf ⟨spiCopy, [ring, channels], ringData⟩ = 8 ∧
      spiBoard.accessOf ⟨spiCopy, [ring, channels], ringData⟩ = .readWrite := by
  obtain ⟨m, hok⟩ := isOk_iff.1 model_spiBoard
  exact ⟨m, hok, properties_in_force hok, by decide +kernel, by decide +kernel⟩

end RegLayer.Svd.Device
