/-
# `RegLayer.Svd.Device` — what a device description says

A device has peripherals, a peripheral has registers and clusters of them, and a register has
fields.  Size, reset value and access can be given at every level and hold for everything below
that does not give its own.  Registers, clusters and fields can be repeated.

The words that the format has for access, for the effect of a write and for the byte order of the
processor are kept as words, apart from what they stand for in a design (`AccessWord.policy`,
`WriteWord.effect?`, `ByteOrderWord.endianness`).  One of them matters for being given: a write
that simply stores its bits has no effect (`WriteWord.effect?_eq_none_iff`), and a field that says
so does not take over the effect that its register gives (`GivenEffect`).

Only what an import uses is kept.  The format has more, among others interrupts, address blocks,
named values and read actions; that these can be wrong is a matter of reading them
(`RegLayer.Svd.Read`).
-/
import RegLayer.Access
import RegLayer.Node

namespace RegLayer.Svd

/-! ## Words of the format -/

/-- What a description can say about access. -/
inductive AccessWord where
  | readOnly
  | readWrite
  | readWriteOnce
  | writeOnly
  | writeOnce
  deriving DecidableEq, Repr

/-- What a description can say about the effect of a write. -/
inductive WriteWord where
  | oneToClear
  | oneToSet
  | oneToToggle
  | zeroToClear
  | zeroToSet
  | zeroToToggle
  | clear
  | set
  /-- The bits take the values that are written. -/
  | modify
  deriving DecidableEq, Repr

/-- What a description can say about the byte order of a processor. -/
inductive ByteOrderWord where
  | little
  | big
  | selectable
  | other
  deriving DecidableEq, Repr

/-- The policy that a word about access stands for. -/
def AccessWord.policy : AccessWord → Policy
  | readOnly => .readOnly
  | readWrite => .readWrite
  | readWriteOnce => .readWriteOnce
  | writeOnly => .writeOnly
  | writeOnce => .writeOnce

/-- The effect that a word about writes stands for, if any. -/
def WriteWord.effect? : WriteWord → Option WriteEffect
  | oneToClear => some .oneClears
  | oneToSet => some .oneSets
  | oneToToggle => some .oneToggles
  | zeroToClear => some .zeroClears
  | zeroToSet => some .zeroSets
  | zeroToToggle => some .zeroToggles
  | clear => some .clears
  | set => some .sets
  | modify => none

/-- The byte order that a word stands for. -/
def ByteOrderWord.endianness : ByteOrderWord → Endianness
  | little => .little
  | big => .big
  | selectable | other => .unspecified

/-- A plain write is the only one without an effect. -/
theorem WriteWord.effect?_eq_none_iff {w : WriteWord} : w.effect? = none ↔ w = .modify := by
  cases w <;> decide

/-! ## Devices -/

/-- Properties of registers, as far as one level gives them. -/
structure Defaults where
  size : Option UInt32 := none
  resetValue : Option UInt32 := none
  access : Option Policy := none
  deriving DecidableEq, Repr

/-- The properties below a level that gives its own in `inner`. -/
def Defaults.inherit (outer inner : Defaults) : Defaults where
  size := inner.size.or outer.size
  resetValue := inner.resetValue.or outer.resetValue
  access := inner.access.or outer.access

/-- How often and how far apart something is repeated, and what tells the repetitions apart where
it is not their number. -/
structure Repetition where
  count : UInt32
  increment : UInt32
  indices : Option (List String)
  deriving DecidableEq, Repr

/-- The bits of a field. -/
structure BitRange where
  lsb : UInt32
  width : UInt32
  deriving DecidableEq, Repr

/-- The effect of a write, where it is given; that a write has none can be given, too. -/
abbrev GivenEffect := Option (Option WriteEffect)

structure Field where
  name : String
  description : Option String
  range : BitRange
  access : Option Policy
  onWrite : GivenEffect
  repetition : Option Repetition
  deriving DecidableEq, Repr

structure Register where
  name : String
  description : Option String
  offset : UInt32
  own : Defaults
  /-- The fields; a register that lists none is one field as a whole. -/
  fields : List Field
  onWrite : GivenEffect
  repetition : Option Repetition
  deriving DecidableEq, Repr

/-- A cluster, without what is in it. -/
structure Cluster where
  name : String
  description : Option String
  offset : UInt32
  own : Defaults
  repetition : Option Repetition
  deriving DecidableEq, Repr

/-- A part of a peripheral or cluster. -/
inductive Part where
  | register (r : Register)
  | cluster (c : Cluster) (parts : List Part)
  deriving Repr

structure Peripheral where
  name : String
  /-- The peripheral that this one is like, where it does not say otherwise. -/
  base : Option String
  description : Option String
  address : UInt32
  own : Defaults
  parts : Option (List Part)
  deriving Repr

structure Device where
  name : String
  description : Option String
  /-- The byte order of its processor. -/
  endianness : Endianness
  own : Defaults
  peripherals : List Peripheral
  deriving Repr

end RegLayer.Svd
