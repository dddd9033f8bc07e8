/-
# `RegLayer.Node` — one component of a design

A node is an instance: an address map, register file, register, memory, field or signal, placed at
an offset inside the component above it.  It also remembers where its type comes from: the type's
name, the declaration, and the scope that the declaration stands in.  Class names are made from
these three.

What belongs to one kind only stands in that kind (`Kind`), so a width without a register cannot
be written down.  Three groups of kinds matter: those that have a class of their own
(`Kind.hasClass`), among these the address maps and register files, which hold components
(`Kind.isGroup`), and the fields of registers (`Kind.field?`).

Of a type only its identity counts.  A declaration is a number (`DeclId`), and what it declares is
said by its instances alone; that two of them look the same is nowhere required.
-/
import RegLayer.Access
import RegLayer.Checked
import RegLayer.Text.Number

namespace RegLayer

/-! ## Parts of a node -/

/-- Byte order of an address map. -/
inductive Endianness where
  | little
  | big
  | unspecified
  deriving DecidableEq, Repr, Inhabited

/-- The verification library's name for a byte order. -/
def Endianness.text : Endianness → String
  | little => "UVM_LITTLE_ENDIAN"
  | big => "UVM_BIG_ENDIAN"
  | unspecified => "UVM_NO_ENDIAN"

/-- Identity of a type declaration: two instances of one declared type carry the same one. -/
structure DeclId where
  index : Nat
  deriving DecidableEq, Repr

/-- Where a type is declared. -/
inductive Scope where
  /-- Outside every other type. -/
  | root
  /-- In the body of a type. -/
  | inside (decl : DeclId)
  deriving DecidableEq, Repr

/-- Shape of an array: its dimensions, outermost first, and the distance between neighbouring
elements of the last one in bytes. -/
structure ArrayShape where
  dims : List UInt64
  stride : UInt64
  deriving DecidableEq, Repr

/-- The number of elements. -/
def ArrayShape.size (shape : ArrayShape) : Except Failure UInt64 :=
  Checked.product shape.dims

/-- A field: its bits in the register, what software may do with it, and its reset value. -/
structure FieldSpec where
  lsb : UInt32
  width : UInt32
  policy : Policy
  onRead : Option ReadEffect
  onWrite : Option WriteEffect
  reset : Option UInt64
  /-- Whether the value may change without software. -/
  isVolatile : Bool
  deriving DecidableEq, Repr

/-- What a node is. -/
inductive Kind where
  /-- An address map; a bridge stands for several address spaces. -/
  | addrmap (endianness : Endianness) (bridge : Bool)
  | regfile
  /-- A register of `width` bits, accessed `accessWidth` bits at a time. -/
  | reg (width accessWidth : UInt32)
  /-- A memory of `entries` words of `width` bits. -/
  | mem (entries : UInt64) (width : UInt32) (policy : Policy)
  | field (spec : FieldSpec)
  | signal
  deriving DecidableEq, Repr

namespace Kind

/-- The kind's name in comments and messages. -/
def label : Kind → String
  | addrmap _ _ => "Addrmap"
  | regfile => "Regfile"
  | reg _ _ => "Reg"
  | mem _ _ _ => "Mem"
  | field _ => "Field"
  | signal => "Signal"

def isAddrmap : Kind → Bool
  | addrmap _ _ => true
  | _ => false

def isReg : Kind → Bool
  | reg _ _ => true
  | _ => false

/-- Address maps and register files hold other components behind a bus. -/
def isGroup : Kind → Bool
  | addrmap _ _ | regfile => true
  | _ => false

/-- Every component but fields and signals gets a class. -/
def hasClass : Kind → Bool
  | field _ | signal => false
  | _ => true

/-- The specification of a field. -/
def field? : Kind → Option FieldSpec
  | field spec => some spec
  | _ => none

end Kind

/-! ## Nodes -/

/-- A component of a design. -/
structure Node where
  name : String
  kind : Kind
  description : Option String := none
  /-- Where the component, or an array's first element, lies in the component above. -/
  offset : UInt64 := 0
  array : Option ArrayShape := none
  /-- The name that its type was declared with; a type made in place has none. -/
  typeName : Option String := none
  /-- The declaration of its type, if known. -/
  decl : Option DeclId := none
  /-- The scope of that declaration, if known. -/
  scope : Option Scope := none
  deriving DecidableEq, Repr

/-- A nameless signal, which is never written out. -/
def Node.blank : Node :=
  { name := "", kind := .signal }

end RegLayer
