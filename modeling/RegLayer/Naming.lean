/-
# `RegLayer.Naming` — names of classes and members

In the lexical style a class is named after the declarations that its type stands in, so all
instances of a declaration get one name.  Where that chain of declarations is not known to the
end, and everywhere in the hierarchical style, the class is named after the path of the instance;
in the lexical style such a name is marked.

The chain is searched upwards: for the declaration that the type stands in, the nearest node above
of that declaration is taken, and the search goes on from there with the declaration that *its*
type stands in (`declaredPath`).  The search gives up at a node of unknown declaration.  So a name
can depend on where an instance stands, although everything in it comes from declarations.

The parts of a name are joined by two underscores, and names are taken as they are, so two chains
can be joined to one name.  Members are named after their nodes, in upper case if that is asked
for; nothing checks that they are different.
-/
import RegLayer.Model.Path
import RegLayer.Options.Basic
import RegLayer.Text.Upper

namespace RegLayer

/-! ## Chains of declarations -/

/-- The type names from the outermost scope to the type that `d` declares, searched among nodes
listed from the inside out.  The search ends at a node of unknown declaration. -/
def declaredPath (d : DeclId) : List Node → Option (List String)
  | [] => none
  | n :: above =>
    match n.decl with
    | none => none
    | some e =>
      if e = d then
        match n.scope with
        | none => none
        | some .root => n.typeName.map ([·])
        | some (.inside outer) =>
          (declaredPath outer above).bind fun names => n.typeName.map fun t => names ++ [t]
      else declaredPath d above

/-- The type names from the outermost scope to the type of a node, given with the nodes above it
from the inside out. -/
def scopePath (n : Node) (above : List Node) : Option (List String) :=
  match n.scope with
  | none => none
  | some .root => n.typeName.map ([·])
  | some (.inside outer) =>
    (declaredPath outer above).bind fun names => n.typeName.map fun t => names ++ [t]

/-! ## Names -/

/-- What the names of an export depend on. -/
structure Naming where
  model : Model
  top : Nat
  style : NamingStyle
  upperCase : Bool := false

namespace Naming

/-- Marks a class name that fell back to the path in the lexical style. -/
def fallbackMark : String := "xtern__"

/-- Stands between the parts of a class name. -/
def separator : String := "__"

/-- The chain of declarations of a node's type, joined. -/
def scopePath? (names : Naming) (h : Nat) (sep : String) : Option String :=
  (scopePath (names.model.node h) ((names.model.ancestors h).map names.model.node)).map
    (Text.join sep)

/-- The path of a node from the export's top. -/
def instancePath (names : Naming) (h : Nat) (sep : String) : String :=
  names.model.relPath h (names.model.parent names.top) sep

/-- The name of a node's class. -/
def className (names : Naming) (h : Nat) : String :=
  match names.style with
  | .lexical =>
    match names.scopePath? h separator with
    | some path => path
    | none => fallbackMark ++ names.instancePath h separator
  | .hierarchical => names.instancePath h separator

/-- The class's description in a comment: the kind, and the name in a readable form. -/
def friendlyName (names : Naming) (h : Nat) : String :=
  let path := match names.style with
    | .lexical => (names.scopePath? h "::").getD (names.instancePath h ".")
    | .hierarchical => names.instancePath h "."
  (names.model.kind h).label ++ " - " ++ path

/-- The name of a node as a member of the class above it. -/
def memberName (names : Naming) (h : Nat) : String :=
  if names.upperCase then Text.upper (names.model.name h) else names.model.name h

end Naming

end RegLayer
