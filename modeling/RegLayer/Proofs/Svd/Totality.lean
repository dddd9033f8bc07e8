/-
# `RegLayer.Proofs.Svd.Totality` — devices that can be imported

A device is *sound* if each peripheral that names a base has one to take registers from, and the
fields of every register fit.  A sound device is imported, and every other one is refused with a
fault of the design (`import_is_total`).  Only one kind of field is an exception: where the end of
the first repetition that does not fit leaves its word, the import aborts (`import_can_abort`).

The import is followed twice along the parts of a device.  What was imported fits
(`fits_of_part`), and what is not imported was refused for a field (`importFails_part`).  Since
the two exclude each other, soundness settles the outcome.

Taken as given: no register of the device has a field that overruns its word.
-/
import RegLayer.Proofs.Svd.Bits
import RegLayer.Proofs.Svd.Design

namespace RegLayer.Svd

/-! ## The registers of a device -/

/-- The register that an origin is. -/
def Origin.register? : Origin → Option Located
  | .register r => some r
  | _ => none

namespace Device

variable (d : Device)

/-- Every register of the device, with what is around it; the registers of a base are there once
more for each peripheral that is like it. -/
def registers : List Located :=
  d.origins.preorder.filterMap (·.register?)

/-- The fields of a register fit in it. -/
def Fits (r : Located) : Prop :=
  ∀ f ∈ r.register.fields, f.Fits (d.sizeOf r)

/-- One of the fields of a register has an end that is counted in vain. -/
def Overruns (r : Located) : Prop :=
  ∃ f ∈ r.register.fields, f.Overruns (d.sizeOf r)

instance (r : Located) : Decidable (d.Overruns r) :=
  inferInstanceAs (Decidable (∃ f ∈ _, _))

/-- A peripheral that names a base and lists no registers finds the base, and that one does not take
its registers from a third. -/
def HasSource (p : Peripheral) : Prop :=
  ∀ base, p.base = some base → p.parts = none →
    ∃ b, d.peripherals.find? (·.name == base) = some b ∧ (b.parts = none → b.base = none)

/-- There are registers for every peripheral, and the fields of every register fit in it. -/
structure Sound : Prop where
  sources : ∀ p ∈ d.peripherals, d.HasSource p
  registers : ∀ r ∈ d.registers, d.Fits r

/-- Why a device is refused: for a peripheral without registers to take, or for a field. -/
inductive Refusal : Failure → Prop
  | source {p : Peripheral} {e : Failure} :
      p ∈ d.peripherals → ¬d.HasSource p → e.OfModel → Refusal e
  | field {r : Located} {f : Field} {e : Failure} :
      r ∈ d.registers → f ∈ r.register.fields → f.Refused (d.sizeOf r) e → Refusal e

/-- The registers and clusters of a peripheral, which are its own or those of its base. -/
def partsOf (p : Peripheral) : List Part :=
  ((d.base? p).getD p).parts.getD []

variable {d}

theorem mem_registers {r : Located} : r ∈ d.registers ↔ .register r ∈ d.origins.preorder := by
  rw [registers, List.mem_filterMap]
  constructor
  · rintro ⟨o, ho, hr⟩
    cases o with
    | register r' => exact Option.some.inj hr ▸ ho
    | _ => cases hr
  · exact fun h => ⟨_, h, rfl⟩

theorem mem_registers_iff_exists {r : Located} : r ∈ d.registers ↔ ∃ p ∈ d.peripherals,
    .register r ∈ Tree.preorderAll (Part.originsAll p [] (d.partsOf p)) := by
  simp [mem_registers, origins, Tree.preorder, Tree.preorderAll_eq, List.flatMap_map,
    peripheralOrigins, partsOf]

end Device

theorem preorderAll_leaves {α : Type} (l : List α) :
    Tree.preorderAll (l.map (Tree.node · [])) = l := by
  rw [Tree.preorderAll_eq, List.flatMap_map]
  exact List.flatMap_singleton' l

theorem register_mem_origins {p : Peripheral} {clusters : List Cluster} {r : Register}
    {l : Located} :
    .register l ∈ (Part.origins p clusters (.register r)).preorder ↔ l = ⟨p, clusters, r⟩ := by
  rw [Part.origins, Tree.preorder, preorderAll_leaves, List.mem_cons]
  simp [register_not_mem_fieldOrigins]

/-! ## What was imported fits -/

section Parts

open Declarations

variable {d : Device} {p : Peripheral}

mutual

/-- Where a part was imported, the fields of its registers fit. -/
theorem fits_of_part : ∀ (q : Part) {clusters : List Cluster} {around : Surroundings}
    {known later : Declarations} {t : Tree Node},
    around.defaults = inForce (clusters.map (·.own) ++ d.peripheralLevels p) →
      Gives (Part.tree around q) known t later →
      ∀ r, .register r ∈ (Part.origins p clusters q).preorder → d.Fits r
  | .register r, _, _, _, _, _, hlevels, h, l, hl => by
    obtain rfl := register_mem_origins.1 hl
    obtain ⟨_, nodes, _, hnodes, _⟩ := gives_register h
    have hfits := Register.fits_of_fieldNodes hnodes
    rw [(fieldDefaults_of r hlevels).width] at hfits
    exact hfits
  | .cluster c parts, _, _, _, _, _, hlevels, h, l, hl => by
    obtain ⟨scope, mid, ts, _, hts, _⟩ := gives_cluster h
    rw [Part.origins, Tree.preorder] at hl
    rcases List.mem_cons.1 hl with hl | hl
    · cases hl
    · exact fits_of_parts parts (defaults_inside c scope hlevels) hts l hl

theorem fits_of_parts : ∀ (qs : List Part) {clusters : List Cluster} {around : Surroundings}
    {known later : Declarations} {ts : List (Tree Node)},
    around.defaults = inForce (clusters.map (·.own) ++ d.peripheralLevels p) →
      Gives (Part.trees around qs) known ts later →
      ∀ r, .register r ∈ Tree.preorderAll (Part.originsAll p clusters qs) → d.Fits r
  | [], _, _, _, _, _, _, _, _, hl => by
    rw [Part.originsAll, Tree.preorderAll] at hl
    exact absurd hl List.not_mem_nil
  | q :: qs, _, _, _, _, _, hlevels, h, l, hl => by
    obtain ⟨t, mid, rest, ht, hrest, _⟩ := gives_trees_cons h
    rw [Part.originsAll, Tree.preorderAll] at hl
    rcases List.mem_append.1 hl with hl | hl
    · exact fits_of_part q hlevels ht l hl
    · exact fits_of_parts qs hlevels hrest l hl

end

end Parts

namespace Device

variable {d : Device} {p source : Peripheral} {m : Model}

theorem partsOf_of_source (h : d.source p = .ok source) :
    d.partsOf p = source.parts.getD [] := by
  rw [partsOf, getD_base?_of_source h]

theorem hasSource_of_source (h : d.source p = .ok source) : d.HasSource p := by
  intro base hbase hparts
  exact ⟨source, found_of_source hbase hparts h⟩

/-- **A device that was imported is sound.** -/
theorem sound_of_model (hok : d.model.outcome = .ok m) : d.Sound := by
  obtain ⟨whole, last, hgives, _⟩ := gives_of_model hok
  obtain ⟨scope, mid, ts, _, _, hperipherals, _⟩ := gives_device hgives
  have himported : ∀ p ∈ d.peripherals,
      ∃ known t later, Gives (d.peripheralTree p) known t later := by
    intro p hp
    obtain ⟨i, hi, rfl⟩ := List.mem_iff_getElem.1 hp
    obtain ⟨t, _, before, after, ht, _⟩ :=
      forall₂_getElem? hperipherals (List.getElem?_eq_getElem hi)
    exact ⟨before, t, after, ht⟩
  refine ⟨fun p hp => ?_, fun r hr => ?_⟩
  · obtain ⟨_, _, _, h⟩ := himported p hp
    obtain ⟨source, _, _, _, hsource, _⟩ := gives_peripheral h
    exact hasSource_of_source hsource
  · obtain ⟨p, hp, hr⟩ := mem_registers_iff_exists.1 hr
    obtain ⟨_, _, _, h⟩ := himported p hp
    obtain ⟨source, _, _, _, hsource, _, hts, _⟩ := gives_peripheral h
    rw [partsOf_of_source hsource] at hr
    exact fits_of_parts _ (defaultsIn_eq hsource) hts r hr

end Device

/-! ## What can fail -/

/-- The part of an import fails in these ways only, whatever was declared before. -/
def ImportFails {α : Type} (P : Failure → Prop) (x : Importing α) : Prop :=
  ∀ known, FailsOnly P (x.run known).outcome

section ImportFails

variable {α β : Type} {P : Failure → Prop} {x : Importing α}

theorem importFails_pure (a : α) : ImportFails P (pure a : Importing α) :=
  fun known => .ok (a, known)

theorem ImportFails.bind {f : α → Importing β} (hx : ImportFails P x)
    (hf : ∀ a known later, Gives x known a later → ImportFails P (f a)) :
    ImportFails P (x >>= f) := by
  intro known
  rw [StateT.run_bind, Report.outcome_bind]
  exact (hx known).bind fun p hp => hf p.1 known p.2 hp p.2

theorem importFails_lift {r : Report α} (h : FailsOnly P r.outcome) :
    ImportFails P (liftM r : Importing α) := by
  intro known
  show FailsOnly P (r >>= fun a => pure (a, known)).outcome
  rw [Report.outcome_bind]
  exact h.bind fun a _ => .ok (a, known)

theorem importFails_mapM {f : α → Importing β} {l : List α} (hf : ∀ a ∈ l, ImportFails P (f a)) :
    ImportFails P (l.mapM f) := by
  induction l with
  | nil =>
    rw [List.mapM_nil]
    exact importFails_pure []
  | cons a l ih =>
    rw [List.mapM_cons]
    refine (hf a List.mem_cons_self).bind fun b _ _ _ => ?_
    exact (ih fun c hc => hf c (List.mem_cons_of_mem a hc)).bind fun _ _ _ _ => importFails_pure _

theorem importFails_declare (key : String) : ImportFails P (declare key) :=
  fun known => .ok ((⟨(known.intern key).1, key⟩ : TypeScope), (known.intern key).2)

theorem importFails_cluster (c : Cluster) (around : Surroundings) :
    ImportFails P (c.declare around) := by
  unfold Cluster.declare
  refine ImportFails.bind (importFails_declare _) fun inner _ _ _ => ?_
  split
  · exact (importFails_lift (.ok ())).bind fun _ _ _ _ => importFails_pure _
  · exact importFails_pure _

end ImportFails

section Parts

variable {d : Device} {p : Peripheral} {P : Failure → Prop}

mutual

/-- A part is refused for a field of its registers only. -/
theorem importFails_part : ∀ (q : Part) {clusters : List Cluster} {around : Surroundings},
    around.defaults = inForce (clusters.map (·.own) ++ d.peripheralLevels p) →
      (∀ r, .register r ∈ (Part.origins p clusters q).preorder →
        ∀ f ∈ r.register.fields, ∀ e, f.Refused (d.sizeOf r) e → P e) →
      ImportFails P (Part.tree around q)
  | .register r, _, _, hlevels, hP => by
    rw [Part.tree, Register.tree]
    refine ImportFails.bind (importFails_declare _) fun _ _ _ _ => ?_
    refine ImportFails.bind (importFails_lift ?_) fun _ _ _ _ => importFails_pure _
    refine (r.failsOnly_fieldNodes _).imp fun e ⟨f, hf, he⟩ => ?_
    rw [(fieldDefaults_of r hlevels).width] at he
    exact hP _ (register_mem_origins.2 rfl) f hf e he
  | .cluster c parts, _, around, hlevels, hP => by
    rw [Part.tree]
    refine ImportFails.bind (importFails_cluster c around) fun scope _ _ _ => ?_
    refine ImportFails.bind ?_ fun _ _ _ _ => importFails_pure _
    refine importFails_parts parts (defaults_inside c scope hlevels) fun r hr => hP r ?_
    rw [Part.origins, Tree.preorder]
    exact List.mem_cons_of_mem _ hr

theorem importFails_parts : ∀ (qs : List Part) {clusters : List Cluster} {around : Surroundings},
    around.defaults = inForce (clusters.map (·.own) ++ d.peripheralLevels p) →
      (∀ r, .register r ∈ Tree.preorderAll (Part.originsAll p clusters qs) →
        ∀ f ∈ r.register.fields, ∀ e, f.Refused (d.sizeOf r) e → P e) →
      ImportFails P (Part.trees around qs)
  | [], _, _, _, _ => by
    rw [Part.trees]
    exact importFails_pure []
  | q :: qs, _, _, hlevels, hP => by
    rw [Part.originsAll, Tree.preorderAll] at hP
    rw [Part.trees]
    refine ImportFails.bind ?_ fun _ _ _ _ => ?_
    · exact importFails_part q hlevels fun r hr => hP r (List.mem_append_left _ hr)
    refine ImportFails.bind ?_ fun _ _ _ _ => importFails_pure _
    exact importFails_parts qs hlevels fun r hr => hP r (List.mem_append_right _ hr)

end

end Parts

namespace Device

variable {d : Device} {p : Peripheral}

theorem failsOnly_source : FailsOnly (fun e => e.OfModel ∧ ¬d.HasSource p) (d.source p) := by
  unfold Device.source
  split
  · next base hbase hparts =>
    split
    · next hnone =>
      refine .error ⟨rfl, fun hsource => ?_⟩
      obtain ⟨b, hfound, _⟩ := hsource base hbase hparts
      rw [hnone] at hfound
      cases hfound
    · next b hfound =>
      split
      · next hderived =>
        refine .error ⟨rfl, fun hsource => ?_⟩
        obtain ⟨b', hfound', hown⟩ := hsource base hbase hparts
        obtain rfl : b = b' := Option.some.inj (hfound.symm.trans hfound')
        simp only [Bool.and_eq_true, Option.isNone_iff_eq_none] at hderived
        rw [hown hderived.1] at hderived
        cases hderived.2
      · exact .ok b
  · exact .ok p

theorem importFails_peripheral (hp : p ∈ d.peripherals) :
    ImportFails d.Refusal (d.peripheralTree p) := by
  refine ImportFails.bind (importFails_lift ?_) fun source _ _ hgives => ?_
  · exact failsOnly_source.imp fun e he => .source hp he.2 he.1
  have hsource : d.source p = .ok source := (gives_lift.1 hgives).1
  refine ImportFails.bind (importFails_declare _) fun scope _ _ _ => ?_
  refine ImportFails.bind ?_ fun _ _ _ _ => importFails_pure _
  have hlevels : d.defaultsIn source p = inForce ([].map Cluster.own ++ d.peripheralLevels p) :=
    defaultsIn_eq hsource
  refine importFails_parts _ hlevels fun r hr f hf e he => ?_
  rw [← partsOf_of_source hsource] at hr
  exact .field (mem_registers_iff_exists.2 ⟨p, hp, hr⟩) hf he

/-- **A device is refused only for a peripheral without a source, or for a field.** -/
theorem failsOnly_model (d : Device) : FailsOnly d.Refusal d.model.outcome := by
  have htree : ImportFails d.Refusal d.tree := by
    refine ImportFails.bind (importFails_declare _) fun scope _ _ _ => ?_
    refine ImportFails.bind (importFails_mapM fun p hp => importFails_peripheral hp)
      fun _ _ _ _ => ?_
    exact (importFails_lift (.ok ())).bind fun _ _ _ _ => importFails_pure _
  show FailsOnly d.Refusal (d.tree.run .empty >>= fun r => pure (Model.ofForest r.2 [r.1])).outcome
  rw [Report.outcome_bind]
  exact (htree .empty).bind fun r _ => .ok _

theorem Refusal.not_sound {e : Failure} (h : d.Refusal e) : ¬d.Sound := by
  intro hsound
  cases h with
  | source hp hnot _ => exact hnot (hsound.sources _ hp)
  | field hr hf hrefused =>
    have hfits := hsound.registers _ hr _ hf
    rcases hrefused with ⟨_, hnot⟩ | ⟨_, hoverruns⟩
    · exact hnot hfits
    · exact hoverruns.not_fits hfits

theorem Refusal.ofModel (hroom : ∀ r ∈ d.registers, ¬d.Overruns r) {e : Failure}
    (h : d.Refusal e) : e.OfModel := by
  cases h with
  | source _ _ hmodel => exact hmodel
  | field hr hf hrefused =>
    rcases hrefused with ⟨hmodel, _⟩ | ⟨_, hoverruns⟩
    · exact hmodel
    · exact absurd ⟨_, hf, hoverruns⟩ (hroom _ hr)

/-- **The import is total**, apart from fields that end beyond a word: a sound device is imported,
and every other one is refused with a fault of the design.  In particular no field outside its
register gets through, be it by itself or as a repetition. -/
theorem import_is_total (hroom : ∀ r ∈ d.registers, ¬d.Overruns r) :
    (d.Sound ∧ (∃ m, d.model.outcome = .ok m) ∨
      ¬d.Sound ∧ ∃ g, d.model.outcome = .error (.fault g) ∧ g.kind = .model) ∧
    ∀ r ∈ d.registers, ∀ f ∈ r.register.fields, ∀ k, k < f.count → ¬f.FitsAt (d.sizeOf r) k →
      ∃ g, d.model.outcome = .error (.fault g) ∧ g.kind = .model := by
  have houtcome : d.Sound ∧ (∃ m, d.model.outcome = .ok m) ∨
      ¬d.Sound ∧ ∃ g, d.model.outcome = .error (.fault g) ∧ g.kind = .model := by
    match hread : d.model.outcome with
    | .ok m => exact .inl ⟨sound_of_model hread, m, rfl⟩
    | .error e =>
      have hrefusal : d.Refusal e := failsOnly_model d e hread
      obtain ⟨g, rfl, hkind⟩ := (hrefusal.ofModel hroom).exists_fault
      exact .inr ⟨hrefusal.not_sound, g, rfl, hkind⟩
  refine ⟨houtcome, fun r hr f hf k hk hnot => ?_⟩
  rcases houtcome with ⟨hsound, _⟩ | ⟨_, hfault⟩
  · exact absurd ((hsound.registers r hr f hf).inside k hk) hnot
  · exact hfault

/-! ### Fields near the last bit that can be counted -/

/-- The peripheral of a device with a single register. -/
def soloBlock (r : Register) : Peripheral :=
  ⟨"P", none, none, 0, {}, some [.register r]⟩

def soloBoard (r : Register) : Device :=
  ⟨"SOC", none, .little, {}, [soloBlock r]⟩

/-- A register of 32 bits with one field. -/
def fieldBoard (range : BitRange) : Device :=
  soloBoard { wholeRegister "R" 0 with fields := [⟨"F", none, range, none, none, none⟩] }

/-- **The import can abort**: the field is as far outside as can be, and its end is not a number of
32 bits. -/
theorem import_can_abort :
    ¬∀ d : Device, (∃ m, d.model.outcome = .ok m) ∨
      ∃ g, d.model.outcome = .error (.fault g) := by
  intro hall
  have habort : Model.size <$> (fieldBoard ⟨0xffffffff, 1⟩).model.outcome =
      .error (.abort .overflow) := by
    decide +kernel
  rcases hall (fieldBoard ⟨0xffffffff, 1⟩) with ⟨m, hok⟩ | ⟨g, hfault⟩
  · rw [hok] at habort
    cases habort
  · rw [hfault] at habort
    cases habort

/-- Two interfaces are imported, and so they are sound; one bit before the last one a field is
refused. -/
theorem import_is_total_boards :
    spiBoard.Sound ∧
      ∃ g, (fieldBoard ⟨0xfffffffe, 1⟩).model.outcome = .error (.fault g) ∧ g.kind = .model := by
  have hspi : ∀ r ∈ spiBoard.registers, ¬spiBoard.Overruns r := by decide +kernel
  have hfield : ∀ r ∈ (fieldBoard ⟨0xfffffffe, 1⟩).registers,
      ¬(fieldBoard ⟨0xfffffffe, 1⟩).Overruns r := by decide +kernel
  refine ⟨?_, ?_⟩
  · rcases (import_is_total hspi).1 with ⟨hsound, _⟩ | ⟨_, g, hfault, _⟩
    · exact hsound
    · obtain ⟨m, hok⟩ := isOk_iff.1 model_spiBoard
      exact nomatch hok.symm.trans hfault
  · refine (import_is_total hfield).2 _ (List.mem_singleton_self _) _ (List.mem_singleton_self _) 0
      (by decide) (by decide +kernel)

end Device

end RegLayer.Svd
