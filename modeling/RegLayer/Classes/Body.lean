/-
# `RegLayer.Classes.Body` — what a generated class says

Between the model and the generated text stands a description of every class: which members it
declares, how it builds them and where it maps them.  The text is written from it alone
(`RegLayer.Classes.Code`), so a statement about the classes can be made of their descriptions and
holds of the text.

There are three shapes.  A register class has fields, the class of an address map or register file
has components, and the class around a memory has the memory and nothing else.  A component is
named by the name of its class; descriptions do not refer to one another.

Offsets are written with the loop variables of an array.  The step of a variable is a product of
dimensions and the stride, which may not fit its word (`Offset.stepsOf`).
-/
import RegLayer.Node

namespace RegLayer

/-- An address offset inside a map.  For an array it depends on the loop variables `i0`, `i1`, …:
each counts with its step. -/
structure Offset where
  base : UInt64
  steps : List UInt64
  deriving DecidableEq, Repr

namespace Offset

/-- The steps of the loop variables, outermost first: the elements below one step of a dimension
times the stride. -/
def stepsOf (stride : UInt64) : List UInt64 → Except Failure (List UInt64)
  | [] => .ok []
  | _ :: inner => do
    let elements ← Checked.product inner
    let step ← Checked.mul64 elements stride
    return step :: (← stepsOf stride inner)

/-- The offset of a node inside the map above it. -/
def ofNode (n : Node) : Except Failure Offset :=
  match n.array with
  | none => .ok ⟨n.offset, []⟩
  | some shape => (stepsOf shape.stride shape.dims).map (⟨n.offset, ·⟩)

/-- The name of a loop variable. -/
def loopVariable (k : Nat) : String :=
  "i" ++ k.repr

/-- The offset as an expression of the generated code. -/
def text (o : Offset) : String :=
  Text.hexConstant o.base ++
    String.join (o.steps.mapIdx fun k step =>
      " + " ++ loopVariable k ++ "*" ++ Text.hexConstant step)

end Offset

namespace Classes

/-- The comment above a class and its name. -/
structure Heading where
  className : String
  friendlyName : String
  description : Option String
  deriving DecidableEq, Repr

/-- A field of a register class. -/
structure FieldMember where
  name : String
  width : UInt32
  lsb : UInt32
  code : AccessCode
  isVolatile : Bool
  reset : Option UInt64
  /-- Whether software can write the field, so that it can be randomised. -/
  writable : Bool
  deriving DecidableEq, Repr

/-- How a component gets into the map of its block. -/
inductive Mapping where
  | register (code : AccessCode)
  | submap
  deriving DecidableEq, Repr

/-- A component of a block class. -/
structure Member where
  className : String
  name : String
  /-- The dimensions, if it is an array. -/
  dims : Option (List UInt64)
  offset : Offset
  mapping : Mapping
  deriving DecidableEq, Repr

/-- A class of the generated code. -/
inductive Body where
  | register (heading : Heading) (width : UInt32) (fields : List FieldMember)
  | block (heading : Heading) (busBytes : UInt32) (endianness : Endianness)
      (members : List Member)
  | memory (heading : Heading) (busBytes : UInt32) (endianness : Endianness)
      (entries : UInt64) (width : UInt32) (code : AccessCode)
  deriving DecidableEq, Repr

def Body.heading : Body → Heading
  | register h _ _ => h
  | block h _ _ _ => h
  | memory h _ _ _ _ _ => h

/-- The name of the class. -/
def Body.name (b : Body) : String :=
  b.heading.className

end Classes

end RegLayer
