/-
# `RegLayer.Proofs.Classes.Overflow` — where rendering can abort

Of the parts of a rendering only the classes can abort, and those only by a number that leaves its
word (`abort_of_render`).  `AbortsOnly` is the form in which this is said of each part; it goes
along chains like every statement about failures.

The numbers are the widths of accesses, to which seven is added, and the products behind the steps
of arrays (`exists_ofNode_iff`).  So a design whose widths and arrays leave room for them is
rendered or refused with a fault (`render_never_aborts`).  Reading a design checks less than that:
it takes widths that leave no room (`wideRegister`), and shapes of arrays whose steps are too long
for their word (`longSteps`).

Taken as given: the design was read from an element.  The two conditions are about numbers of the
model, and each of the two designs shows that one of them is needed.
-/
import RegLayer.Proofs.Classes.Collision
import RegLayer.Proofs.Classes.Sharing
import RegLayer.Proofs.Naming.Hierarchical

namespace RegLayer

/-! ## Work that aborts in some ways only -/

/-- If the computation aborts, then in one of these ways. -/
def AbortsOnly {α : Type} (P : Abort → Prop) (r : Except Failure α) : Prop :=
  ∀ a, r = .error (.abort a) → P a

namespace AbortsOnly

variable {α β : Type} {P : Abort → Prop} {r : Except Failure α} {f : α → Except Failure β}

theorem ok (a : α) : AbortsOnly P (.ok a : Except Failure α) :=
  fun _ h => nomatch h

theorem fault (f : Fault) : AbortsOnly P (.error (.fault f) : Except Failure α) :=
  fun _ h => nomatch h

theorem iff_failsOnly : AbortsOnly P r ↔ FailsOnly (fun e => ∀ a, e = .abort a → P a) r := by
  constructor
  · intro h e he a ha
    exact h a (ha ▸ he)
  · intro h a ha
    exact h _ ha a rfl

theorem bind (hr : AbortsOnly P r) (hf : ∀ a, r = .ok a → AbortsOnly P (f a)) :
    AbortsOnly P (r >>= f) :=
  iff_failsOnly.2 ((iff_failsOnly.1 hr).bind fun a ha => iff_failsOnly.1 (hf a ha))

theorem map (hr : AbortsOnly P r) (g : α → β) : AbortsOnly P (g <$> r) :=
  iff_failsOnly.2 ((iff_failsOnly.1 hr).map g)

theorem cases_of_not (hr : AbortsOnly P r) (hP : ∀ a, ¬P a) :
    (∃ a, r = .ok a) ∨ ∃ f, r = .error (.fault f) := by
  match r, hr with
  | .ok a, _ => exact .inl ⟨a, rfl⟩
  | .error (.fault f), _ => exact .inr ⟨f, rfl⟩
  | .error (.abort a), hr => exact absurd (hr a rfl) (hP a)

end AbortsOnly

/-! ## The parts of a rendering -/

section Render

variable {P : Abort → Prop}

theorem Banner.abortsOnly_expand (vars : Variables) (cs : List Char) :
    AbortsOnly P (expand vars cs) := by
  fun_induction expand vars cs with
  | case1 cs name rest _ value _ ih => exact ih.map _
  | case2 cs name rest _ _ => exact .fault _
  | case3 => exact .ok []
  | case4 c cs _ ih => exact ih.map _

theorem Exporter.abortsOnly_fillBanner (e : Exporter) (m : Model) (top : Nat) (output : String) :
    AbortsOnly P (e.fillBanner m top output) := by
  unfold fillBanner
  split
  · exact (Banner.abortsOnly_expand _ _).map _
  · exact .fault _

theorem Classes.Container.abortsOnly_ofPath (style : ContainerStyle) (path : String) :
    AbortsOnly P (ofPath style path) := by
  cases style with
  | package =>
    refine AbortsOnly.map ?_ _
    unfold packageName
    split
    · exact .ok _
    · exact .fault _
  | header =>
    refine AbortsOnly.map ?_ _
    unfold includeGuard
    split
    · exact .ok _
    · exact .fault _

theorem Exporter.abortsOnly_checkTop (m : Model) (top : Nat) :
    AbortsOnly P (checkTop m top).outcome := by
  unfold checkTop
  cases m.kind top with
  | addrmap endianness bridge => cases bridge <;> exact .ok ()
  | regfile | reg | mem | field | signal => exact .fault _

/-- **A rendering that aborts does so at a number that leaves its word**, in a region where the
numbers do not fit. -/
theorem Exporter.abort_of_render {m : Model} (hf : m.Forest) (e : Exporter) (top : Nat)
    (output : String) :
    AbortsOnly (fun a => a = .overflow ∧ ¬m.Fits top) (e.render m top output).outcome := by
  rw [outcome_render]
  refine (abortsOnly_checkTop m top).bind fun _ htop => ?_
  have hsize : top < m.size := Model.lt_size_of_isAddrmap (isAddrmap_of_checkTop htop)
  refine (e.abortsOnly_fillBanner m top output).bind fun banner _ => ?_
  refine (Classes.Container.abortsOnly_ofPath _ output).bind fun container _ => ?_
  refine AbortsOnly.bind ?_ fun out _ => .ok _
  rcases describe_cases (e := e) hf hsize with ⟨out, hout, _⟩ | ⟨name, hout, _⟩ | ⟨hout, hno⟩
  · rw [hout]
    exact .ok out
  · rw [hout]
    exact .fault _
  · rw [hout]
    intro a ha
    cases ha
    exact ⟨rfl, hno⟩

end Render

/-! ## The steps of an array in its word -/

namespace Checked

theorem exists_mul64_iff {a b : UInt64} :
    (∃ c, mul64 a b = .ok c) ↔ a.toNat * b.toNat < UInt64.size := by
  constructor
  · rintro ⟨c, hc⟩
    exact (within_eq_ok_iff.1 hc).1
  · intro h
    exact ⟨a * b, within_eq_ok_iff.2 ⟨h, rfl⟩⟩

theorem exists_product_iff {factors : List UInt64} :
    (∃ p, product factors = .ok p) ↔
      ∀ first, first <+: factors → (first.map UInt64.toNat).prod < UInt64.size := by
  have key : ∀ start : UInt64, (∃ p, factors.foldlM mul64 start = .ok p) ↔
      ∀ first, first <+: factors →
        start.toNat * (first.map UInt64.toNat).prod < UInt64.size := by
    induction factors with
    | nil =>
      intro start
      constructor
      · intro _ first hfirst
        rw [List.prefix_nil.1 hfirst, List.map_nil, List.prod_nil, Nat.mul_one]
        exact start.toNat_lt
      · exact fun _ => ⟨start, rfl⟩
    | cons d ds ih =>
      intro start
      rw [List.foldlM_cons]
      constructor
      · rintro ⟨p, hp⟩ first hfirst
        obtain ⟨next, hnext, hrest⟩ := bind_eq_ok.1 hp
        rcases List.prefix_cons_iff.1 hfirst with rfl | ⟨first, rfl, hinner⟩
        · rw [List.map_nil, List.prod_nil, Nat.mul_one]
          exact start.toNat_lt
        · rw [List.map_cons, List.prod_cons, ← Nat.mul_assoc, ← mul64_eq_ok_iff.1 hnext]
          exact (ih next).1 ⟨p, hrest⟩ first hinner
      · intro h
        have hone := h [d] ⟨ds, rfl⟩
        rw [List.map_singleton, List.prod_singleton] at hone
        obtain ⟨next, hnext⟩ := exists_mul64_iff.2 hone
        obtain ⟨p, hp⟩ := (ih next).2 fun first hfirst => by
          have hcons := h (d :: first) (List.prefix_cons_inj d |>.2 hfirst)
          rwa [List.map_cons, List.prod_cons, ← Nat.mul_assoc, ← mul64_eq_ok_iff.1 hnext] at hcons
        exact ⟨p, bind_eq_ok.2 ⟨next, hnext, hp⟩⟩
  refine (key 1).trans (forall₂_congr fun first _ => ?_)
  rw [show (1 : UInt64).toNat = 1 from rfl, Nat.one_mul]

end Checked

/-- Every number on the way to the steps of an array has 64 bits: below each dimension, the products
of the inner dimensions from the left, and the number of elements times the stride. -/
def ArrayShape.StepsFit (shape : ArrayShape) : Prop :=
  ∀ d inner, d :: inner <:+ shape.dims →
    (∀ first, first <+: inner → (first.map UInt64.toNat).prod < UInt64.size) ∧
      (inner.map UInt64.toNat).prod * shape.stride.toNat < UInt64.size

namespace Offset

theorem exists_stepsOf_iff {stride : UInt64} {dims : List UInt64} :
    (∃ steps, stepsOf stride dims = .ok steps) ↔ (⟨dims, stride⟩ : ArrayShape).StepsFit := by
  induction dims with
  | nil => exact ⟨fun _ d inner h => (nomatch List.suffix_nil.1 h), fun _ => ⟨[], rfl⟩⟩
  | cons d inner ih =>
    constructor
    · rintro ⟨steps, h⟩
      obtain ⟨elements, helements, h⟩ := bind_eq_ok.1 h
      obtain ⟨step, hstep, h⟩ := bind_eq_ok.1 h
      obtain ⟨rest, hrest, _⟩ := bind_eq_ok.1 h
      intro d' inner' hsuffix
      rcases List.suffix_cons_iff.1 hsuffix with heq | hsuffix
      · cases heq
        refine ⟨Checked.exists_product_iff.1 ⟨elements, helements⟩, ?_⟩
        rw [← Checked.toNat_product helements]
        exact Checked.exists_mul64_iff.1 ⟨step, hstep⟩
      · exact ih.1 ⟨rest, hrest⟩ d' inner' hsuffix
    · intro h
      obtain ⟨hfirst, hlast⟩ := h d inner List.suffix_rfl
      obtain ⟨elements, helements⟩ := Checked.exists_product_iff.2 hfirst
      rw [← Checked.toNat_product helements] at hlast
      obtain ⟨step, hstep⟩ := Checked.exists_mul64_iff.2 hlast
      obtain ⟨rest, hrest⟩ := ih.2 fun d' inner' hsuffix =>
        h d' inner' (List.suffix_cons_iff.2 (.inr hsuffix))
      exact ⟨step :: rest, bind_eq_ok.2 ⟨elements, helements,
        bind_eq_ok.2 ⟨step, hstep, bind_eq_ok.2 ⟨rest, hrest, rfl⟩⟩⟩⟩

/-- **A node has an offset** exactly where the steps of its array stay in their word. -/
theorem exists_ofNode_iff {n : Node} :
    (∃ offset, ofNode n = .ok offset) ↔ ∀ shape, n.array = some shape → shape.StepsFit := by
  unfold ofNode
  cases n.array with
  | none => exact ⟨fun _ shape h => (nomatch h), fun _ => ⟨_, rfl⟩⟩
  | some shape =>
    constructor
    · rintro ⟨offset, h⟩ shape' heq
      obtain ⟨steps, hsteps, _⟩ := map_eq_ok.1 h
      cases heq
      exact exists_stepsOf_iff.1 ⟨steps, hsteps⟩
    · intro h
      obtain ⟨steps, hsteps⟩ := exists_stepsOf_iff.2 (h shape rfl)
      exact ⟨⟨n.offset, steps⟩, map_eq_ok.2 ⟨steps, hsteps, rfl⟩⟩

end Offset

/-! ## Designs that leave room -/

/-- **Rendering a design that was read does not abort** where no access in the region is wider than
2³² - 8 bits and the steps of all arrays below its top have 64 bits: there is a layer, or there is a
fault. -/
theorem Exporter.render_never_aborts {root : Xml.Element} {m : Model} {top : Nat}
    (hread : Description.ofElement root = .ok m)
    (hwidths : ∀ h ∈ m.classed top, (m.kind h).accessBits.toNat + 7 < 2 ^ 32)
    (harrays : ∀ h ∈ m.classed top, h ≠ top → ∀ shape, (m.node h).array = some shape →
      shape.StepsFit) (e : Exporter) (output : String) :
    (∃ layer, (e.render m top output).outcome = .ok layer) ∨
      ∃ f, (e.render m top output).outcome = .error (.fault f) := by
  have hforest : m.Forest := (Description.built_of_ofElement hread).forest
  have hfits : m.Fits top :=
    { widths := hwidths
      arrays := fun h hh hne => Offset.exists_ofNode_iff.2 (harrays h hh hne) }
  exact (abort_of_render hforest e top output).cases_of_not fun a ha => ha.2 hfits

/-! ### Numbers at the limit, and beyond it -/

/-- A design with one array of registers. -/
def registers (width dims stride : String) : String :=
  "<model><addrmap name=\"soc\"><reg name=\"ctrl\" regwidth=\"" ++ width ++ "\" dims=\"" ++ dims ++
    "\" stride=\"" ++ stride ++ "\"/></addrmap></model>"

/-- The widest register that leaves room, in steps of almost 64 bits. -/
def roomyRegisters : String :=
  registers "0xfffffff8" "2,0x80000000" "0x1ffffffff"

theorem fits_roomyRegisters :
    (fun m => decide (m.Fits 0)) <$> Description.read roomyRegisters = .ok true := by
  decide +kernel

theorem Exporter.render_never_aborts_roomyRegisters :
    ∃ m, Description.read roomyRegisters = .ok m ∧ ∀ (e : Exporter) (output : String),
      (∃ layer, (e.render m 0 output).outcome = .ok layer) ∨
        ∃ f, (e.render m 0 output).outcome = .error (.fault f) := by
  obtain ⟨m, hread, hfits⟩ := map_eq_ok.1 fits_roomyRegisters
  have hfits : m.Fits 0 := of_decide_eq_true hfits
  obtain ⟨root, _, hroot⟩ := Description.read_eq_ok_iff.1 hread
  exact ⟨m, hread, render_never_aborts hroot hfits.widths fun h hh hne =>
    Offset.exists_ofNode_iff.1 (hfits.arrays h hh hne)⟩

/-- A register that is wider than seven bits less than a word can count. -/
def wideRegister : String :=
  "<model><addrmap name=\"soc\"><reg name=\"ctrl\" regwidth=\"0xffffffff\"/></addrmap></model>"

/-- Narrow registers, two rows of them, whose rows are 2⁶⁴ bytes apart. -/
def longSteps : String :=
  registers "8" "2,0x100000000" "0x100000000"

/-- What is seen of rendering a text that is read as a design, with its first map as the top. -/
def verdictOf (text : String) : Except Failure (Bool × Except (Option FaultKind) (Nat × Nat)) :=
  (fun m => ((m.kind 0).isAddrmap,
    Exporter.verdict (plainExporter.render m 0 "soc_pkg.sv").outcome)) <$> Description.read text

theorem verdictOf_wideRegister : verdictOf wideRegister = .ok (true, .error none) := by
  decide +kernel

theorem verdictOf_longSteps : verdictOf longSteps = .ok (true, .error none) := by
  decide +kernel

theorem exists_abort_of_verdictOf {text : String}
    (h : verdictOf text = .ok (true, .error none)) :
    ∃ m, Description.read text = .ok m ∧ (m.kind 0).isAddrmap = true ∧
      ∃ a, (plainExporter.render m 0 "soc_pkg.sv").outcome = .error (.abort a) := by
  obtain ⟨m, hread, hpair⟩ := map_eq_ok.1 h
  obtain ⟨hmap, hverdict⟩ := Prod.mk.inj hpair
  refine ⟨m, hread, hmap, ?_⟩
  match hout : (plainExporter.render m 0 "soc_pkg.sv").outcome with
  | .ok layer => rw [hout] at hverdict; cases hverdict
  | .error (.fault f) => rw [hout] at hverdict; cases hverdict
  | .error (.abort a) => exact ⟨a, rfl⟩

/-- **Rendering a design that was read can abort**: a width that is read leaves no room to round it
up to bytes. -/
theorem Exporter.render_can_abort :
    ¬∀ (text : String) (m : Model) (e : Exporter) (top : Nat) (output : String),
      Description.read text = .ok m → (m.kind top).isAddrmap = true →
      (∃ layer, (e.render m top output).outcome = .ok layer) ∨
        ∃ f, (e.render m top output).outcome = .error (.fault f) := by
  intro hall
  obtain ⟨m, hread, hmap, a, habort⟩ := exists_abort_of_verdictOf verdictOf_wideRegister
  rcases hall wideRegister m plainExporter 0 "soc_pkg.sv" hread hmap with ⟨layer, hok⟩ | ⟨f, hfault⟩
  · rw [habort] at hok
    cases hok
  · rw [habort] at hfault
    cases hfault

theorem Exporter.render_can_abort_at_steps :
    ∃ m, Description.read longSteps = .ok m ∧
      (∀ h ∈ m.classed 0, (m.kind h).accessBits.toNat + 7 < 2 ^ 32) ∧
      ∃ a, (plainExporter.render m 0 "soc_pkg.sv").outcome = .error (.abort a) := by
  have hwidths : (fun m => decide (∀ h ∈ m.classed 0, (m.kind h).accessBits.toNat + 7 < 2 ^ 32)) <$>
      Description.read longSteps = .ok true := by decide +kernel
  obtain ⟨m, hread, hroom⟩ := map_eq_ok.1 hwidths
  obtain ⟨m', hread', _, hout⟩ := exists_abort_of_verdictOf verdictOf_longSteps
  obtain rfl : m = m' := Except.ok.inj (hread.symm.trans hread')
  exact ⟨m, hread, of_decide_eq_true hroom, hout⟩

end RegLayer
