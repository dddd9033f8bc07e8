/-
# `RegLayer.Svd.Import` — devices as designs

A device becomes an address map with one address map for each peripheral, a cluster becomes a
register file, and a register that lists no fields gets one for all of its bits.  Registers and
clusters that are repeated become arrays; repeated fields become one field each.

Every register and cluster is a type declared inside the type around it, and every peripheral a
type of its own.  A peripheral that is like another one, and changes nothing about its registers,
is one more instance of that one's type.  Types are known by keys, the names on the way down
joined; there is one table of keys for the device and everything in it, and a key that is met
again is the same type.

Properties are handed down (`Surroundings`): a level adds its own to those around it, and a
register hands its properties to its fields.  A field has to lie in its register and is checked
where its node is made; the field of a register that lists none is made without the check.  All
positions are counted in 32 bits, and leaving them aborts the import.
-/
import RegLayer.Model.Forest
import RegLayer.Report
import RegLayer.Svd.Read

namespace RegLayer.Svd

/-- Importing meets declarations, and leaves notices. -/
abbrev Importing (α : Type) := StateT Declarations Report α

/-- Ends the import with a fault. -/
def refuse {α : Type} (f : Fault) : Importing α :=
  (Report.fail f : Report α)

/-- A declared type that others can be declared inside. -/
structure TypeScope where
  decl : DeclId
  key : String

/-- The declaration with this key. -/
def declare (key : String) : Importing TypeScope := do
  return ⟨← modifyGet (·.intern key), key⟩

/-- The declaration of a type inside another one. -/
def TypeScope.declareIn (outer : TypeScope) (name : String) : Importing TypeScope :=
  declare (outer.key ++ "::" ++ name)

/-- A name without the places for an index. -/
def bareName (name : String) : String :=
  Text.replace (Text.replace name "[%s]" "") "%s" ""

/-- A name with the index in its places. -/
def indexedName (name index : String) : String :=
  Text.replace (Text.replace name "[%s]" index) "%s" index

/-- The shape of something that is repeated. -/
def Repetition.shape (r : Repetition) : ArrayShape where
  dims := [r.count.toUInt64]
  stride := r.increment.toUInt64

/-- The width of a register where no level gives one. -/
def defaultSize : UInt32 := 32

/-! ## Fields -/

/-- What a register's fields take from it. -/
structure FieldDefaults where
  /-- The path of the register. -/
  path : String
  width : UInt32
  access : Policy
  onWrite : Option WriteEffect
  resetValue : Option UInt32

/-- The mask of a field of this width, which has all bits of a word if the field is as wide. -/
def fieldMask (width : UInt32) : UInt64 :=
  if 64 ≤ width then 0xffffffffffffffff else (1 <<< width.toUInt64) - 1

/-- The bits of a register's reset value that belong to a field. -/
def FieldDefaults.resetFor (d : FieldDefaults) (lsb width : UInt32) : Option UInt64 :=
  d.resetValue.map fun value =>
    (Checked.shiftRight64? value.toUInt64 lsb).getD 0 &&& fieldMask width

/-- The specification of a field at a place of its own. -/
def FieldDefaults.spec (d : FieldDefaults) (lsb width : UInt32) (access : Option Policy)
    (onWrite : GivenEffect) : FieldSpec where
  lsb := lsb
  width := width
  policy := access.getD d.access
  onRead := none
  onWrite := onWrite.getD d.onWrite
  reset := d.resetFor lsb width
  isVolatile := false

/-- Refuses a field that does not lie inside its register. -/
def FieldDefaults.check (d : FieldDefaults) (name : String) (lsb width : UInt32) :
    Except Failure Unit := do
  let end_ ← Checked.add32 lsb width
  if width = 0 ∨ d.width < end_ then
    throw (.fault (.fieldOutside d.path name lsb end_ d.width))

/-- The node of a field under a name and at a place of its own. -/
def Field.nodeAt (f : Field) (d : FieldDefaults) (name : String) (lsb : UInt32) :
    Except Failure Node := do
  d.check name lsb f.range.width
  return {
    name := name
    kind := .field (d.spec lsb f.range.width f.access f.onWrite)
    description := f.description.map Text.tidy }

/-- What tells the repetitions of a field apart. -/
def Field.indices (f : Field) (d : FieldDefaults) (r : Repetition) :
    Except Failure (List String) :=
  match r.indices with
  | none => .ok ((List.range r.count.toNat).map Nat.repr)
  | some is =>
    if is.length = r.count.toNat then .ok is
    else .error (.fault (.indexCount d.path f.name))

/-- The node of one repetition of a field, given its index and its number. -/
def Field.repeated (f : Field) (d : FieldDefaults) (r : Repetition) (which : String × Nat) :
    Except Failure Node := do
  let step ← Checked.mul32 (UInt32.ofNat which.2) r.increment
  f.nodeAt d (indexedName f.name which.1) (← Checked.add32 f.range.lsb step)

/-- The nodes of a field and its repetitions. -/
def Field.nodes (f : Field) (d : FieldDefaults) : Except Failure (List Node) :=
  match f.repetition with
  | none => do return [← f.nodeAt d f.name f.range.lsb]
  | some r => do (← f.indices d r).zipIdx.mapM (f.repeated d r)

/-- The name of the field of a register that lists none. -/
def wholeName : String := "value"

/-- The field of a register that lists none. -/
def FieldDefaults.whole (d : FieldDefaults) : Node where
  name := wholeName
  kind := .field (d.spec 0 d.width none none)

/-- The nodes of a register's fields. -/
def Register.fieldNodes (r : Register) (d : FieldDefaults) : Except Failure (List Node) :=
  match r.fields with
  | [] => .ok [d.whole]
  | fields => do return (← fields.mapM (·.nodes d)).flatten

/-! ## Registers and clusters -/

/-- What surrounds a part: the names from the top down to it, its type, and the properties that
hold in it. -/
structure Surroundings where
  names : List String
  scope : TypeScope
  defaults : Defaults

/-- What a register's fields take from it. -/
def Register.fieldDefaults (r : Register) (around : Surroundings) : FieldDefaults :=
  let defaults := around.defaults.inherit r.own
  { path := Text.join "." (around.names ++ [bareName r.name])
    width := defaults.size.getD defaultSize
    access := defaults.access.getD .readWrite
    onWrite := r.onWrite.join
    resetValue := defaults.resetValue }

/-- The node of a register. -/
def Register.node (r : Register) (around : Surroundings) (decl : DeclId) (width : UInt32) :
    Node where
  name := bareName r.name
  kind := .reg width width
  description := r.description.map Text.tidy
  offset := r.offset.toUInt64
  array := r.repetition.map (·.shape)
  typeName := some (bareName r.name)
  decl := some decl
  scope := some (.inside around.scope.decl)

/-- A register with its fields. -/
def Register.tree (r : Register) (around : Surroundings) : Importing (Tree Node) := do
  let inner ← around.scope.declareIn (bareName r.name)
  let d := r.fieldDefaults around
  let fields ← ((r.fieldNodes d : Except Failure _) : Report _)
  return .node (r.node around inner.decl d.width) (fields.map (.node · []))

/-- The node of a cluster. -/
def Cluster.node (c : Cluster) (around : Surroundings) (decl : DeclId) : Node where
  name := bareName c.name
  kind := .regfile
  description := c.description.map Text.tidy
  offset := c.offset.toUInt64
  array := c.repetition.map (·.shape)
  typeName := some (bareName c.name)
  decl := some decl
  scope := some (.inside around.scope.decl)

/-- What surrounds the parts of a cluster. -/
def Cluster.inside (c : Cluster) (around : Surroundings) (scope : TypeScope) : Surroundings where
  names := around.names ++ [bareName c.name]
  scope := scope
  defaults := around.defaults.inherit c.own

/-- The type of a cluster; that it is an array is noticed. -/
def Cluster.declare (c : Cluster) (around : Surroundings) : Importing TypeScope := do
  let inner ← around.scope.declareIn (bareName c.name)
  match c.repetition with
  | some r => (Report.note (.clusterArray inner.key r.count) : Report Unit)
  | none => pure ()
  return inner

mutual

/-- A register or cluster with everything inside it. -/
def Part.tree (around : Surroundings) : Part → Importing (Tree Node)
  | .register r => r.tree around
  | .cluster c parts => do
    let scope ← c.declare around
    return .node (c.node around scope.decl) (← Part.trees (c.inside around scope) parts)

/-- Registers and clusters, one after the other. -/
def Part.trees (around : Surroundings) : List Part → Importing (List (Tree Node))
  | [] => return []
  | p :: ps => do
    let t ← Part.tree around p
    return t :: (← Part.trees around ps)

end

/-! ## Peripherals -/

/-- The peripheral whose registers a peripheral has: the one it is like if it lists none itself,
and otherwise itself. -/
def Device.source (d : Device) (p : Peripheral) : Except Failure Peripheral :=
  match p.base, p.parts with
  | some base, none =>
    match d.peripherals.find? (·.name == base) with
    | none => .error (.fault (.unknownBase p.name base))
    | some source =>
      if source.parts.isNone && source.base.isSome then
        .error (.fault (.derivedBase p.name source.name))
      else .ok source
  | _, _ => .ok p

/-- The properties that hold in the device map. -/
def Device.defaults (d : Device) : Defaults :=
  Defaults.inherit {} d.own

/-- The properties that hold in a peripheral with these registers. -/
def Device.defaultsIn (d : Device) (source p : Peripheral) : Defaults :=
  (d.defaults.inherit source.own).inherit p.own

/-- The name of a peripheral's type: that of the peripheral whose registers it has, unless it
changes their properties. -/
def Device.typeName (d : Device) (source p : Peripheral) : String :=
  if d.defaultsIn source p = d.defaults.inherit source.own then source.name else p.name

/-- The node of a peripheral. -/
def Device.peripheralNode (d : Device) (source p : Peripheral) (scope : TypeScope) : Node where
  name := p.name
  kind := .addrmap d.endianness false
  description := (p.description.or source.description).map Text.tidy
  offset := p.address.toUInt64
  typeName := some scope.key
  decl := some scope.decl
  scope := some .root

/-- A peripheral with its registers. -/
def Device.peripheralTree (d : Device) (p : Peripheral) : Importing (Tree Node) := do
  let source ← (monadLift (d.source p) : Report _)
  let scope ← declare (d.typeName source p)
  let around : Surroundings := ⟨[d.name, p.name], scope, d.defaultsIn source p⟩
  return .node (d.peripheralNode source p scope) (← Part.trees around (source.parts.getD []))

/-! ## Devices -/

/-- The node of a device. -/
def Device.node (d : Device) (decl : DeclId) : Node where
  name := d.name
  kind := .addrmap d.endianness false
  description := d.description.map Text.tidy
  typeName := some d.name
  decl := some decl
  scope := some .root

/-- A device with its peripherals. -/
def Device.tree (d : Device) : Importing (Tree Node) := do
  let scope ← declare d.name
  let peripherals ← d.peripherals.mapM d.peripheralTree
  (Report.note (.deviceImported d.name d.peripherals.length) : Report Unit)
  return .node (d.node scope.decl) peripherals

/-- The design of a device. -/
def Device.model (d : Device) : Report Model := do
  let (tree, declarations) ← d.tree.run .empty
  return Model.ofForest declarations [tree]

/-- The handle of the device's map, which is the first node of the design. -/
def deviceMap : Nat := 0

/-- Reads the design of a device. -/
def read (text : String) : Report Model := do
  let d ← (monadLift (Read.deviceOfText text) : Report _)
  d.model

end RegLayer.Svd
