/-
# `RegLayer.Proofs.Svd.Types` — the types of a device

The device map, its peripherals, and all registers and clusters inside them declare their types in
one table of keys, and a peripheral that is like another one declares none of its own.  What two
nodes of one declaration have in common is shown in two steps.  A list of names, from the device
or a peripheral down, stands for one type only (`Device.Names.unique`); and a key, which is the
list joined, tells the list, as long as no name breaks the joint and the device is not named like
a peripheral (`Device.PlainNames`).

Then components of one declaration are alike (`Device.Imported.alike`), and no class is left out
or serves for something else (`types_kept_apart`).  A peripheral with the name of its device shows
that the second step is needed: the map of the device is left without a class (`types_can_meet`).

Taken as given: the device was imported, names side by side differ (`DistinctNames`), and names
are plain in the sense above.
-/
import RegLayer.Proofs.Classes.Endianness
import RegLayer.Proofs.Svd.Parts

namespace RegLayer.Svd

open Declarations

/-! ## The registers of a peripheral -/

theorem Defaults.inherit_self (a b : Defaults) : (a.inherit b).inherit b = a.inherit b := by
  simp [Defaults.inherit, ← Option.or_assoc]

namespace Device

variable {d : Device} {p q source source' : Peripheral}

theorem found_of_source {base : String} (hbase : p.base = some base) (hparts : p.parts = none)
    (h : d.source p = .ok source) :
    d.peripherals.find? (·.name == base) = some source ∧
      (source.parts = none → source.base = none) := by
  simp only [Device.source, hbase, hparts] at h
  split at h
  · cases h
  · next found hfound =>
    split at h
    · cases h
    · next hown =>
      obtain rfl := Except.ok.inj h
      exact ⟨hfound, by simpa using hown⟩

theorem source_self (hown : p.parts = none → p.base = none) : d.source p = .ok p := by
  unfold Device.source
  split
  · next base hbase hparts =>
    rw [hown hparts] at hbase
    cases hbase
  · rfl

theorem source_cases (h : d.source p = .ok source) :
    source = p ∨ source ∈ d.peripherals ∧ d.source source = .ok source := by
  by_cases hown : p.parts = none → p.base = none
  · exact Or.inl (Except.ok.inj (h.symm.trans (source_self hown)))
  · obtain ⟨hparts, hbase⟩ := Classical.not_imp.1 hown
    obtain ⟨base, hbase⟩ := Option.ne_none_iff_exists'.1 hbase
    obtain ⟨hfound, hsource⟩ := found_of_source hbase hparts h
    exact Or.inr ⟨List.mem_of_find?_eq_some hfound, source_self hsource⟩

/-- **Every type of a peripheral is named after one that has it as its own**: a peripheral with the
same registers, under the same properties. -/
theorem exists_namesake (hp : p ∈ d.peripherals) (h : d.source p = .ok source) :
    ∃ r ∈ d.peripherals, r.name = d.typeName source p ∧ d.source r = .ok source ∧
      d.defaultsIn source r = d.defaultsIn source p := by
  unfold typeName
  split
  · next hsame =>
    have hself : d.defaultsIn source source = d.defaults.inherit source.own :=
      Defaults.inherit_self _ _
    rcases source_cases h with rfl | ⟨hmem, hsource⟩
    · exact ⟨source, hp, rfl, h, rfl⟩
    · exact ⟨source, hmem, rfl, hsource, hself.trans hsame.symm⟩
  · exact ⟨p, hp, rfl, h, rfl⟩

/-! ## Names of types -/

/-- No two peripherals have the same name, and no two parts side by side. -/
structure DistinctNames (d : Device) : Prop where
  peripherals : (d.peripherals.map (·.name)).Nodup
  parts : ∀ p ∈ d.peripherals, ∀ level ∈ Part.levels (p.parts.getD []),
    (level.map Part.name).Nodup

/-- The device is not named like a peripheral, and no name holds the colons that join names to
keys, or ends in one. -/
structure PlainNames (d : Device) : Prop where
  apart : ∀ p ∈ d.peripherals, p.name ≠ d.name
  device : Text.Plain "::" d.name
  peripherals : ∀ p ∈ d.peripherals, Text.Plain "::" p.name
  parts : ∀ p ∈ d.peripherals, ∀ level ∈ Part.levels (p.parts.getD []), ∀ q ∈ level,
    Text.Plain "::" q.name

/-- What a type is declared for: the device map, a peripheral with these parts, or a part, each
of the latter under these properties. -/
inductive Role where
  | device
  | peripheral (parts : List Part) (defaults : Defaults)
  | part (p : Part) (own : Defaults)

/-- The list of names stands for a type of the device. -/
inductive Names (d : Device) : List String → Role → Prop
  | device : Names d [d.name] .device
  | peripheral {p source : Peripheral} : p ∈ d.peripherals → d.source p = .ok source →
      Names d [d.typeName source p] (.peripheral (source.parts.getD []) (d.defaultsIn source p))
  | part {p source : Peripheral} {path : List String} {q : Part} {own : Defaults} :
      p ∈ d.peripherals → d.source p = .ok source →
      Part.At (source.parts.getD []) (d.defaultsIn source p) path q own →
      Names d (d.typeName source p :: path) (.part q own)

theorem mem_source (hp : p ∈ d.peripherals) (h : d.source p = .ok source) :
    source ∈ d.peripherals := by
  rcases source_cases h with rfl | ⟨hmem, _⟩
  · exact hp
  · exact hmem

theorem eq_of_typeName_eq (hd : d.DistinctNames) (hp : p ∈ d.peripherals)
    (hq : q ∈ d.peripherals) (hsource : d.source p = .ok source)
    (hsource' : d.source q = .ok source') (hname : d.typeName source p = d.typeName source' q) :
    source = source' ∧ d.defaultsIn source p = d.defaultsIn source' q := by
  obtain ⟨r, hr, hrname, hrsource, hrdefaults⟩ := exists_namesake hp hsource
  obtain ⟨r', hr', hrname', hrsource', hrdefaults'⟩ := exists_namesake hq hsource'
  obtain rfl : r = r' :=
    List.inj_on_of_nodup_map hd.peripherals hr hr' ((hrname.trans hname).trans hrname'.symm)
  obtain rfl : source = source' := Except.ok.inj (hrsource.symm.trans hrsource')
  exact ⟨rfl, hrdefaults.symm.trans hrdefaults'⟩

theorem typeName_ne (hplain : d.PlainNames) (hp : p ∈ d.peripherals)
    (hsource : d.source p = .ok source) : d.typeName source p ≠ d.name := by
  obtain ⟨r, hr, hrname, _, _⟩ := exists_namesake hp hsource
  rw [← hrname]
  exact hplain.apart r hr

/-- **A list of names stands for one type only.** -/
theorem Names.unique (hd : d.DistinctNames) (hplain : d.PlainNames) {path : List String}
    {role role' : Role} (h : d.Names path role) (h' : d.Names path role') : role = role' := by
  -- The first name settles the registers and their properties, and the others the part of them.
  cases h with
  | device =>
    generalize hpath : [d.name] = path at h'
    cases h' with
    | device => rfl
    | peripheral hp hsource =>
      exact absurd (List.cons.inj hpath).1.symm (typeName_ne hplain hp hsource)
    | part hp hsource hat => exact absurd (List.cons.inj hpath).2.symm hat.path_ne_nil
  | @peripheral p source hp hsource =>
    generalize hpath : [d.typeName source p] = path at h'
    cases h' with
    | device => exact absurd (List.cons.inj hpath).1 (typeName_ne hplain hp hsource)
    | peripheral hq hsource' =>
      obtain ⟨rfl, hdefaults⟩ :=
        eq_of_typeName_eq hd hp hq hsource hsource' (List.cons.inj hpath).1
      rw [hdefaults]
    | part hq hsource' hat => exact absurd (List.cons.inj hpath).2.symm hat.path_ne_nil
  | @part p source below q own hp hsource hat =>
    generalize hpath : d.typeName source p :: below = path at h'
    cases h' with
    | device => exact absurd (List.cons.inj hpath).2 hat.path_ne_nil
    | peripheral hq hsource' => exact absurd (List.cons.inj hpath).2 hat.path_ne_nil
    | part hq hsource' hat' =>
      obtain ⟨hname, rfl⟩ := List.cons.inj hpath
      obtain ⟨rfl, hdefaults⟩ := eq_of_typeName_eq hd hp hq hsource hsource' hname
      rw [← hdefaults] at hat'
      obtain ⟨rfl, rfl⟩ := hat.unique (hd.parts source (mem_source hp hsource)) hat'
      rfl

theorem Names.ne_nil {path : List String} {role : Role} (h : d.Names path role) : path ≠ [] := by
  cases h <;> exact List.cons_ne_nil _ _

theorem Names.plain (hplain : d.PlainNames) {path : List String} {role : Role}
    (h : d.Names path role) : ∀ name ∈ path, Text.Plain "::" name := by
  have htype : ∀ {p source}, p ∈ d.peripherals → d.source p = .ok source →
      Text.Plain "::" (d.typeName source p) := by
    intro p source hp hsource
    obtain ⟨r, hr, hrname, _, _⟩ := exists_namesake hp hsource
    exact hrname ▸ hplain.peripherals r hr
  intro name hname
  cases h with
  | device =>
    obtain rfl := List.mem_singleton.1 hname
    exact hplain.device
  | peripheral hp hsource =>
    obtain rfl := List.mem_singleton.1 hname
    exact htype hp hsource
  | part hp hsource hat =>
    rcases List.mem_cons.1 hname with rfl | hname
    · exact htype hp hsource
    · exact hat.forall_mem_path (hplain.parts _ (mem_source hp hsource)) name hname

/-! ## What is imported for a type -/

variable {known later : Declarations} {whole t t' : Tree Node}

/-- The tree is what is imported for a type; the device map is the whole. -/
inductive Role.Fits (d : Device) (whole : Tree Node) : Role → Tree Node → Prop
  | device : Role.Fits d whole .device whole
  | peripheral {parts : List Part} {own : Defaults} {around : Surroundings}
      {known later : Declarations} {t : Tree Node} :
      t.label.kind = .addrmap d.endianness false → around.defaults = own →
      Gives (Part.trees around parts) known t.children later →
      Role.Fits d whole (.peripheral parts own) t
  | part {p : Part} {own : Defaults} {t : Tree Node} :
      p.Makes own t → Role.Fits d whole (.part p own) t

theorem Role.Fits.alike {role : Role} (h : Role.Fits d whole role t)
    (h' : Role.Fits d whole role t') : t.label.kind = t'.label.kind ∧
      t.children.map Tree.outline = t'.children.map Tree.outline := by
  cases h with
  | device =>
    cases h'
    exact ⟨rfl, rfl⟩
  | @peripheral parts _ _ _ _ _ hkind hown hparts =>
    cases h' with
    | peripheral hkind' hown' hparts' =>
      exact ⟨hkind.trans hkind'.symm,
        Part.outline_trees parts (hown.trans hown'.symm) hparts hparts'⟩
  | @part p own _ hmakes =>
    cases h' with
    | part hmakes' =>
      obtain ⟨around, _, _, hown, hgives⟩ := hmakes
      obtain ⟨around', _, _, hown', hgives'⟩ := hmakes'
      have houtline := Part.outline_tree p (hown.trans hown'.symm) hgives hgives'
      obtain ⟨n, ts⟩ := t
      obtain ⟨n', ts'⟩ := t'
      rw [Tree.outline_node, Tree.outline_node] at houtline
      obtain ⟨hlook, hts⟩ := Tree.node.inj houtline
      exact ⟨congrArg Prod.snd hlook, hts⟩

/-- What stands at the top of a tree that was imported for a device: a field, or what was imported
for a type, declared under the names that stand for it. -/
inductive Keyed (d : Device) (whole : Tree Node) (known : Declarations) (t : Tree Node) : Prop
  | field : t.label.decl = none → Keyed d whole known t
  | type {path : List String} {role : Role} {i : DeclId} :
      d.Names path role → Role.Fits d whole role t → t.label.decl = some i →
      known.label? i = some (Text.join "::" path) → Keyed d whole known t

theorem Keyed.mono (h : d.Keyed whole known t) (hgrows : Grows known later) :
    d.Keyed whole later t := by
  cases h with
  | field hnone => exact .field hnone
  | type hnames hfits hdecl hlabel => exact .type hnames hfits hdecl (hgrows.label? hlabel)

theorem Keyed.of_part (hp : p ∈ d.peripherals) (hsource : d.source p = .ok source)
    (h : Part.Keyed (source.parts.getD []) (d.defaultsIn source p) (d.typeName source p) known t) :
    d.Keyed whole known t := by
  cases h with
  | field hnone => exact .field hnone
  | part hat hmakes hdecl hlabel => exact .type (.part hp hsource hat) (.part hmakes) hdecl hlabel

/-- **Everything in a peripheral has its key.** -/
theorem keyed_peripheral (whole : Tree Node) (hp : p ∈ d.peripherals)
    (h : Gives (d.peripheralTree p) known t later) :
    ∀ s : Tree Node, s.Subtree t → d.Keyed whole later s := by
  obtain ⟨source, scope, mid, ts, hsource, hdeclared, hts, rfl⟩ := gives_peripheral h
  obtain ⟨hgrows, hparts⟩ := Part.keyed_trees _ hts
  intro s hs
  rcases Tree.subtree_node_iff.1 hs with rfl | ⟨t, ht, hs⟩
  · have hlabel := hgrows.label? hdeclared.label
    rw [← Text.join_singleton "::" (d.typeName source p)] at hlabel
    exact .type (.peripheral hp hsource) (.peripheral rfl rfl hts) rfl hlabel
  · have hkeyed := hparts t ht s hs
    rw [hdeclared.key_eq] at hkeyed
    exact .of_part hp hsource hkeyed

/-- **Everything in a device has its key**, and the whole has the name of the device. -/
theorem keyed_tree (h : Gives d.tree known whole later) :
    (∀ s : Tree Node, s.Subtree whole → d.Keyed whole later s) ∧
      ∃ i, whole.label.decl = some i ∧ later.label? i = some (Text.join "::" [d.name]) := by
  obtain ⟨scope, mid, ts, hdeclared, hgrows, hperipherals, rfl⟩ := gives_device h
  have hlabel : later.label? scope.decl = some (Text.join "::" [d.name]) :=
    hgrows.label? hdeclared.label
  refine ⟨fun s hs => ?_, scope.decl, rfl, hlabel⟩
  rcases Tree.subtree_node_iff.1 hs with rfl | ⟨t, ht, hs⟩
  · exact .type .device .device rfl hlabel
  · obtain ⟨p, hp, before, after, hp', hafter⟩ := forall₂_exists_left hperipherals ht
    exact (keyed_peripheral _ hp hp' s hs).mono hafter

/-- **A key tells its type**: whatever has the declaration of a type was imported for it. -/
theorem Keyed.fits (hd : d.DistinctNames) (hplain : d.PlainNames) {path : List String}
    {role : Role} {i : DeclId} (hnames : d.Names path role)
    (hlabel : known.label? i = some (Text.join "::" path)) (h : d.Keyed whole known t)
    (hdecl : t.label.decl = some i) : Role.Fits d whole role t := by
  cases h with
  | field hnone =>
    rw [hnone] at hdecl
    cases hdecl
  | @type path' role' j hnames' hfits hdecl' hlabel' =>
    obtain rfl : i = j := Option.some.inj (hdecl.symm.trans hdecl')
    have hkeys : Text.join "::" path = Text.join "::" path' :=
      Option.some.inj (hlabel.symm.trans hlabel')
    obtain rfl : path = path' := Text.join_inj (hnames.plain hplain) (hnames'.plain hplain)
      hnames.ne_nil hnames'.ne_nil hkeys
    obtain rfl : role = role' := hnames.unique hd hplain hnames'
    exact hfits

/-! ## The model of a device -/

/-- What is left of an import in the model of a device: everything has its key, the device map
that of the device, and the whole stands nowhere else. -/
structure Imported (d : Device) (m : Model) (whole : Tree Node) (known : Declarations) : Prop where
  built : m.Built
  keyed : ∀ h, h < m.size → d.Keyed whole known (m.unfold h)
  top : ∃ i, (m.node deviceMap).decl = some i ∧
    known.label? i = some (Text.join "::" [d.name])
  eq_deviceMap : ∀ h, h < m.size → m.unfold h = whole → h = deviceMap

variable {m : Model}

theorem gives_of_model (hok : d.model.outcome = .ok m) :
    ∃ whole known, Gives d.tree .empty whole known ∧ Model.ofForest known [whole] = m := by
  rw [Device.model, Report.outcome_bind] at hok
  obtain ⟨⟨whole, known⟩, hgives, hm⟩ := bind_eq_ok.1 hok
  exact ⟨whole, known, hgives, Except.ok.inj hm⟩

theorem exists_imported (hok : d.model.outcome = .ok m) :
    ∃ whole known, d.Imported m whole known := by
  obtain ⟨whole, known, hgives, rfl⟩ := gives_of_model hok
  obtain ⟨hkeyed, i, hdecl, hlabel⟩ := keyed_tree hgives
  refine ⟨whole, known, Model.built_ofForest known [whole], fun h hh => ?_, ⟨i, ?_, hlabel⟩,
    fun h hh => Model.eq_zero_of_unfold_eq hh⟩
  · obtain ⟨t, ht, hsub⟩ := Model.exists_unfold_ofForest hh
    obtain rfl := List.mem_singleton.1 ht
    exact hkeyed _ hsub
  · rw [← Model.label_unfold, deviceMap, Model.unfold_zero_ofForest]
    exact hdecl

namespace Imported

variable (himp : d.Imported m whole known) (hd : d.DistinctNames) (hplain : d.PlainNames)

include himp hd hplain

/-- Components of one declaration are alike. -/
theorem alike {a b : Nat} (ha : a < m.size) (hb : b < m.size)
    (hknown : (m.node a).decl.isSome = true) (hsame : (m.node a).decl = (m.node b).decl) :
    m.Alike a b := by
  rw [← Model.label_unfold] at hknown
  rw [← Model.label_unfold, ← Model.label_unfold] at hsame
  rw [Model.alike_iff_unfold]
  cases himp.keyed a ha with
  | field hnone =>
    rw [hnone] at hknown
    cases hknown
  | type hnames hfits hdecl hlabel =>
    have hfits' := (himp.keyed b hb).fits hd hplain hnames hlabel (hsame.symm.trans hdecl)
    exact hfits.alike hfits'

theorem eq_deviceMap_of_decl_eq {h : Nat} (hh : h < m.size)
    (hsame : (m.node h).decl = (m.node deviceMap).decl) : h = deviceMap := by
  obtain ⟨i, hdecl, hlabel⟩ := himp.top
  have hfits := (himp.keyed h hh).fits hd hplain .device hlabel
    ((congrArg Node.decl (Model.label_unfold m h)).trans (hsame.trans hdecl))
  generalize htree : m.unfold h = t at hfits
  cases hfits
  exact himp.eq_deviceMap h hh htree

end Imported

/-- **The types of a device are kept apart**, where peripherals have different names, and parts
side by side, and these names are plain.  Components of one declaration are alike.  In a layer of
the device map, the device map has a class of its own; and the class of any component was written
for it or for one that is alike, and is the only class of its name. -/
theorem types_kept_apart (hok : d.model.outcome = .ok m) (hd : d.DistinctNames)
    (hplain : d.PlainNames) :
    (∀ a b, a < m.size → b < m.size → (m.node a).decl.isSome = true →
      (m.node a).decl = (m.node b).decl → m.Alike a b) ∧
    ∀ (e : Exporter) (output : String) (layer : Layer),
      (e.render m deviceMap output).outcome = .ok layer →
      (∃ body ∈ layer.bodies, (e.context m deviceMap).Describes deviceMap body) ∧
      ∀ n ∈ m.classed deviceMap, ∃ f, m.Alike f n ∧
        ∃ body ∈ layer.bodies, (e.context m deviceMap).Describes f body ∧
          body.name = (e.context m deviceMap).names.className n ∧
          ∀ other ∈ layer.bodies, other.name = body.name → other = body := by
  obtain ⟨whole, known, himp⟩ := exists_imported hok
  refine ⟨fun a b ha hb => himp.alike hd hplain ha hb, fun e output layer hrender => ?_⟩
  constructor
  · obtain ⟨hmap, _⟩ := Exporter.run_of_render hrender
    obtain ⟨f, hf, hsame, body, hbody, hdesc, _⟩ :=
      Exporter.exists_class himp.built hrender (Model.mem_classed_self hmap)
    -- No other component has the declaration of the device, so its class was written for it.
    obtain rfl : f = deviceMap := by
      rcases hsame with heq | ⟨_, hdecl⟩
      · exact heq
      · exact himp.eq_deviceMap_of_decl_eq hd hplain (Model.lt_size_of_mem_classed hf) hdecl
    exact ⟨body, hbody, hdesc⟩
  · intro n hn
    obtain ⟨f, hf, hsame, body, hbody, hdesc, hname, honly⟩ :=
      Exporter.exists_class himp.built hrender hn
    have halike : m.Alike f n := by
      rcases hsame with rfl | ⟨hknown, hdecl⟩
      · exact ⟨rfl, rfl⟩
      · exact himp.alike hd hplain (Model.lt_size_of_mem_classed hf)
          (Model.lt_size_of_mem_classed hn) hknown hdecl
    exact ⟨f, halike, body, hbody, hdesc, hname, honly⟩

/-! ### Peripherals that are like another one, and a peripheral with the name of its device -/

/-- A register that lists no fields. -/
def wholeRegister (name : String) (offset : UInt32) : Register where
  name := name
  description := none
  offset := offset
  own := {}
  fields := []
  onWrite := none
  repetition := none

/-- A peripheral with a control register, and an array of queues with a data register each. -/
def uartBlock : Peripheral where
  name := "UART0"
  base := none
  description := none
  address := 0x1000
  own := {}
  parts := some
    [.register (wholeRegister "CTRL" 0),
      .cluster ⟨"FIFO[%s]", none, 8, {}, some ⟨4, 8, none⟩⟩ [.register (wholeRegister "DATA" 0)]]

/-- A device with two peripherals that are like the first; one of them makes its registers
narrower. -/
def uartBoard : Device where
  name := "SOC"
  description := none
  endianness := .little
  own := {}
  peripherals :=
    [uartBlock,
      { uartBlock with name := "UART1", base := some "UART0", address := 0x2000, parts := none },
      { uartBlock with
        name := "UART2", base := some "UART0", address := 0x3000, own := { size := some 16 }
        parts := none }]

theorem withLayer_uartBoard :
    (fun r : Model × Layer => (decide (7 < r.1.size ∧ (r.1.node 1).decl.isSome = true ∧
      (r.1.node 1).decl = (r.1.node 7).decl), r.2.classes, r.2.reused)) <$>
        plainExporter.withLayer uartBoard.model.outcome deviceMap "soc_pkg.sv" =
      .ok (true, 9, 4) := by
  decide +kernel

theorem distinctNames_uartBoard : uartBoard.DistinctNames :=
  ⟨by decide +kernel, by decide +kernel⟩

theorem plainNames_uartBoard : uartBoard.PlainNames :=
  ⟨by decide +kernel, by decide +kernel, by decide +kernel, by decide +kernel⟩

/-- The second peripheral is of the first one's type and looks like it. -/
theorem types_kept_apart_uartBoard :
    ∃ m layer, uartBoard.model.outcome = .ok m ∧
      (plainExporter.render m deviceMap "soc_pkg.sv").outcome = .ok layer ∧
      uartBoard.DistinctNames ∧ uartBoard.PlainNames ∧ m.Alike 1 7 ∧
      ∃ body ∈ layer.bodies, (plainExporter.context m deviceMap).Describes deviceMap body := by
  obtain ⟨⟨m, layer⟩, hok, hfacts⟩ := map_eq_ok.1 withLayer_uartBoard
  obtain ⟨hmodel, hrender⟩ := Exporter.withLayer_eq_ok.1 hok
  obtain ⟨hsize, hknown, hsame⟩ := of_decide_eq_true (congrArg Prod.fst hfacts)
  have hfirst : 1 < m.size := Nat.lt_trans (by decide) hsize
  obtain ⟨halike, hlayer⟩ :=
    types_kept_apart hmodel distinctNames_uartBoard plainNames_uartBoard
  exact ⟨m, layer, hmodel, hrender, distinctNames_uartBoard, plainNames_uartBoard,
    halike 1 7 hfirst hsize hknown hsame, (hlayer plainExporter "soc_pkg.sv" layer hrender).1⟩

/-- A device with a single peripheral of its own name. -/
def homonym : Device where
  name := "SOC"
  description := none
  endianness := .little
  own := {}
  peripherals :=
    [{ uartBlock with name := "SOC", parts := some [.register (wholeRegister "CTRL" 0)] }]

theorem decl_homonym :
    (fun m => decide (1 < m.size ∧ (m.node 0).decl.isSome = true ∧
      (m.node 0).decl = (m.node 1).decl ∧ ¬m.Alike 0 1)) <$> homonym.model.outcome = .ok true := by
  decide +kernel

/-- **Types can meet** where a peripheral is named like its device: the two have one declaration,
and one of them holds the other. -/
theorem types_can_meet :
    ¬∀ (d : Device) (m : Model), d.model.outcome = .ok m → d.DistinctNames →
      ∀ a b, a < m.size → b < m.size → (m.node a).decl.isSome = true →
        (m.node a).decl = (m.node b).decl → m.Alike a b := by
  intro hall
  obtain ⟨m, hmodel, hfacts⟩ := map_eq_ok.1 decl_homonym
  obtain ⟨hsize, hknown, hsame, hother⟩ := of_decide_eq_true hfacts
  have hdistinct : homonym.DistinctNames := ⟨by decide +kernel, by decide +kernel⟩
  have hfirst : 0 < m.size := Nat.lt_trans (by decide) hsize
  exact hother (hall homonym m hmodel hdistinct 0 1 hfirst hsize hknown hsame)

end Device

end RegLayer.Svd
