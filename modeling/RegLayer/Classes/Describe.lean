/-
# `RegLayer.Classes.Describe` — the classes of a model

The classes are described children first, so that each stands before the block that uses it.  A
component's class is described only if its name is new; otherwise the class that has the name
serves again, provided that both come from one declaration.

`Context.describe` goes down the list of a traversal and takes the class register along.  It stops
at the first component whose class cannot be described, be it that its name is taken
(`ClassRegister.claim`) or that a number leaves its word (`body?`).  What it tells on the way are
notices, and the outcome does not depend on them.

A block has as members those of the components just below it that have a class; a register has the
fields just below it; a memory has none.  Whatever else stands below a register or memory has its
class described as well, but is no member of anything.
-/
import RegLayer.BusWidth
import RegLayer.Classes.Body
import RegLayer.ClassRegister
import RegLayer.Naming

namespace RegLayer.Classes

/-- What the classes of an export depend on. -/
structure Context where
  names : Naming
  widths : WidthTable

namespace Context

variable (ctx : Context)

/-! ## One class -/

def heading (h : Nat) : Heading where
  className := ctx.names.className h
  friendlyName := ctx.names.friendlyName h
  description := (ctx.names.model.node h).description

/-- The member of a register class for one of its fields. -/
def fieldMember (field : Nat × FieldSpec) : FieldMember where
  name := ctx.names.memberName field.1
  width := field.2.width
  lsb := field.2.lsb
  code := accessCode field.2.policy field.2.onRead field.2.onWrite
  isVolatile := field.2.isVolatile
  reset := field.2.reset
  writable := field.2.policy.canWrite

/-- The member of a block class for one of its components. -/
def member (h : Nat) : Except Failure Member := do
  let m := ctx.names.model
  let offset ← Offset.ofNode (m.node h)
  return {
    className := ctx.names.className h
    name := ctx.names.memberName h
    dims := (m.node h).array.map (·.dims)
    offset := offset
    mapping := if (m.kind h).isReg then .register (m.registerCode h) else .submap }

/-- The components that a block class has as members. -/
def components (h : Nat) : List Nat :=
  (ctx.names.model.children h).filter fun c => (ctx.names.model.kind c).hasClass

/-- The class of an address map or register file. -/
def block (h : Nat) : Report Body := do
  let m := ctx.names.model
  let bytes ← ctx.widths.busBytes (m.path h)
  let members ← (((ctx.components h).mapM ctx.member : Except Failure _) : Report _)
  return .block (ctx.heading h) bytes (m.endianness h) members

/-- The class around a memory. -/
def memory (h : Nat) (entries : UInt64) (width : UInt32) (policy : Policy) : Report Body := do
  let m := ctx.names.model
  let bytes ← busBytes (m.path h) width
  return .memory (ctx.heading h) bytes (m.endianness h) entries width policy.memoryCode

/-- The class of a register. -/
def register (h : Nat) (width : UInt32) : Body :=
  .register (ctx.heading h) width ((ctx.names.model.fields h).map ctx.fieldMember)

/-- The class of a component that has one. -/
def body? (h : Nat) : Report (Option Body) :=
  match ctx.names.model.kind h with
  | .reg width _ => return some (ctx.register h width)
  | .addrmap _ _ | .regfile => some <$> ctx.block h
  | .mem entries width policy => some <$> ctx.memory h entries width policy
  | .field _ | .signal => return none

/-! ## All classes -/

/-- The classes described so far, in order, and how often one served again. -/
structure Outcome where
  bodies : List Body
  reused : Nat
  register : ClassRegister

/-- Asks for the class name of a component, and says whether its class has to be described. -/
def claim (r : ClassRegister) (h : Nat) : Report (Bool × ClassRegister) := do
  let m := ctx.names.model
  let name := ctx.names.className h
  let (fresh, r) ← r.claim name (m.node h).decl
  Report.note (if fresh then .classDefined name (m.path h) else .classReused name (m.path h))
  return (fresh, r)

/-- The classes of components in this order, given the class names already taken. -/
def describe (r : ClassRegister) : List Nat → Report Outcome
  | [] => return ⟨[], 0, r⟩
  | h :: hs =>
    if (ctx.names.model.kind h).hasClass then do
      let (fresh, r) ← ctx.claim r h
      if fresh then
        let body ← ctx.body? h
        let out ← describe r hs
        return { out with bodies := body.toList ++ out.bodies }
      else
        let out ← describe r hs
        return { out with reused := out.reused + 1 }
    else describe r hs

end Context

end RegLayer.Classes
