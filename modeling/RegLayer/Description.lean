/-
# `RegLayer.Description` — designs written as elements

A design is described by a `model` element.  Every element inside it is a component, named for its
kind, with its properties as attributes and its parts as elements inside it.  A component names
its type, and the scope that the type is declared in, by keys; equal keys are one declaration,
wherever in the description they stand.

Reading is one descent.  At each element the properties are read in a fixed order and the first
mistake ends the reading (`node`): the name, the kind with what belongs to it, the place, the
scope and declaration, the offset, the array.  Only the element around one is looked at for the
place (`checkPlace`); siblings are not compared, and nothing is looked up in another branch but
the keys.

`ofElement` reads an element, `read` a text.  They are kept apart because the text is read into an
element by rules that have nothing to do with designs (`RegLayer.Xml`); `read_eq_ok_iff` says that
this is all there is to it, so what is proved of every element holds of every text.
-/
import RegLayer.Model.Forest
import RegLayer.Xml.Element

namespace RegLayer.Description

open Xml

/-! ## Attributes -/

def required (tag : Tag) (key : String) : Except Failure String :=
  match tag.attribute? key with
  | some v => .ok v
  | none => .error (.fault (.missingAttribute tag.name key))

/-- What is read from the value of an attribute, if the attribute is there. -/
def optional {α : Type} (tag : Tag) (key : String) (read : String → Except Failure α) :
    Except Failure (Option α) :=
  match tag.attribute? key with
  | some v => some <$> read v
  | none => .ok none

def number? (tag : Tag) (key : String) : Except Failure (Option UInt64) :=
  optional tag key Text.readNumber

def number (tag : Tag) (key : String) : Except Failure UInt64 := do
  Text.readNumber (← required tag key)

/-- A number of bits or the place of a bit, as a word of 32 bits. -/
def bits (tag : Tag) (key : String) (n : UInt64) : Except Failure UInt32 :=
  match Text.word32? n.toNat with
  | some w => .ok w
  | none => .error (.fault (.outOfRange tag.name key n))

/-- A width in bits, which has to be positive. -/
def width? (tag : Tag) (key : String) : Except Failure (Option UInt32) := do
  match ← number? tag key with
  | none => return none
  | some n =>
    if n = 0 then throw (.fault (.zeroWidth tag.name key))
    some <$> bits tag key n

/-- Reads a switch. -/
def readFlag (key : String) : String → Except Failure Bool
  | "true" | "1" => .ok true
  | "false" | "0" => .ok false
  | other => .error (.fault (.notAFlag key other))

/-- A switch, which is off where it is not mentioned. -/
def flag (tag : Tag) (key : String) : Except Failure Bool := do
  return (← optional tag key (readFlag key)).getD false

/-- The access policy, which allows everything where it is not mentioned. -/
def policy (tag : Tag) : Except Failure Policy := do
  return (← optional tag "sw" readPolicy).getD .readWrite

/-! ## Kinds -/

def endianness (tag : Tag) : Except Failure Endianness := do
  if ← flag tag "bigendian" then return .big
  if ← flag tag "littleendian" then return .little
  return .unspecified

/-- The width of a field from its lowest bit and the bit that it ends with. -/
def widthUpTo (tag : Tag) (lsb : UInt32) (msb : UInt64) : Except Failure UInt32 := do
  if msb.toNat < lsb.toNat then throw (.fault (.fieldUpsideDown lsb msb))
  Checked.add32 (← Checked.sub32 (← bits tag "msb" msb) lsb) 1

/-- The width of a field, which is one bit where neither width nor highest bit is given. -/
def fieldWidth (tag : Tag) (lsb : UInt32) : Except Failure UInt32 := do
  let width ← width? tag "width"
  let msb ← number? tag "msb"
  match width, msb with
  | some w, _ => return w
  | none, some msb => widthUpTo tag lsb msb
  | none, none => return 1

def fieldSpec (tag : Tag) : Except Failure FieldSpec := do
  let lsb ← bits tag "lsb" (← number tag "lsb")
  let width ← fieldWidth tag lsb
  return {
    lsb := lsb
    width := width
    policy := ← policy tag
    onRead := ← optional tag "onread" readReadEffect
    onWrite := ← optional tag "onwrite" readWriteEffect
    reset := ← number? tag "reset"
    isVolatile := ← flag tag "volatile" }

/-- The width of a memory's words, which has to be given. -/
def wordWidth (tag : Tag) : Except Failure UInt32 := do
  match ← width? tag "memwidth" with
  | some w => return w
  | none => throw (.fault (.missingAttribute "mem" "memwidth"))

/-- The kind of a component with the properties that belong to it. -/
def kind (tag : Tag) : Except Failure Kind :=
  match tag.name with
  | "addrmap" => return .addrmap (← endianness tag) (← flag tag "bridge")
  | "regfile" => return .regfile
  | "reg" => do
    let width := (← width? tag "regwidth").getD 32
    return .reg width ((← width? tag "accesswidth").getD width)
  | "mem" => return .mem (← number tag "mementries") (← wordWidth tag) (← policy tag)
  | "field" => return .field (← fieldSpec tag)
  | "signal" => return .signal
  | other => throw (.fault (.unknownComponent other))

/-! ## Places -/

/-- The component around another one: the names from the top down to it, and its kind. -/
structure Place where
  names : List String
  kind : Kind

/-- Whether a component of this kind may stand at the place: fields stand in registers and nothing
else does, and only address maps stand at the top. -/
def checkPlace (place : Option Place) (element name : String) (kind : Kind) :
    Except Failure Unit :=
  match place with
  | none =>
    if kind.isAddrmap then .ok () else .error (.fault (.topNotAMap name element))
  | some around =>
    if around.kind.isReg == kind.field?.isSome then .ok ()
    else .error (.fault (.misplaced element name (Text.join "." around.names)))

/-- The place that a component makes for the components inside it. -/
def placeInside (place : Option Place) (node : Node) : Place :=
  ⟨place.elim [] (·.names) ++ [node.name], node.kind⟩

/-! ## Declarations -/

/-- The key for the outermost scope. -/
def rootKey : String := "root"

/-- Stands for a scope that is not given. -/
def unknownScope : String := "?"

/-- The key of the declaration of a component's type: the one that is given, or else one made from
the scope and the type. -/
def declKey? (tag : Tag) : Option String :=
  match tag.attribute? "def" with
  | some key => some key
  | none =>
    (tag.attribute? "type").map fun type =>
      match tag.attribute? "scope" with
      | none => unknownScope ++ "::" ++ type
      | some scope => if scope = rootKey then type else scope ++ "::" ++ type

/-- Reading that meets declarations. -/
abbrev Loading (α : Type) := StateT Declarations (Except Failure) α

/-- The declaration with this key. -/
def intern (key : String) : Loading DeclId :=
  modifyGet (·.intern key)

/-- The scope that a component's type is declared in. -/
def scope? (tag : Tag) : Loading (Option Scope) :=
  match tag.attribute? "scope" with
  | none => return none
  | some key => if key = rootKey then return some .root else return some (.inside (← intern key))

/-- The declaration of a component's type. -/
def decl? (tag : Tag) : Loading (Option DeclId) :=
  match declKey? tag with
  | none => return none
  | some key => some <$> intern key

/-! ## Components -/

/-- The dimensions of an array. -/
def readDims (text : String) : Except Failure (List UInt64) :=
  (Text.split ',' text).mapM Text.readNumber

/-- The shape of a component that is an array. -/
def array? (tag : Tag) (name : String) : Except Failure (Option ArrayShape) := do
  match ← optional tag "dims" readDims with
  | none => return none
  | some dims =>
    match ← number? tag "stride" with
    | some stride => return some ⟨dims, stride⟩
    | none => throw (.fault (.missingStride name))

/-- The component that a tag describes at a place. -/
def node (place : Option Place) (tag : Tag) : Loading Node := do
  let name ← required tag "name"
  let kind ← kind tag
  checkPlace place tag.name name kind
  let scope ← scope? tag
  let decl ← decl? tag
  let offset ← number? tag "offset"
  let array ← array? tag name
  return {
    name := name
    kind := kind
    description := tag.attribute? "desc"
    offset := offset.getD 0
    array := array
    typeName := tag.attribute? "type"
    decl := decl
    scope := scope }

mutual

/-- The component that an element describes, with the components inside it. -/
def component (place : Option Place) : Element → Loading (Tree Node)
  | .node tag inside => do
    let n ← node place tag
    return .node n (← components (some (placeInside place n)) inside)

/-- The components that elements describe, one after the other. -/
def components (place : Option Place) : List Element → Loading (List (Tree Node))
  | [] => return []
  | e :: es => do
    let t ← component place e
    return t :: (← components place es)

end

/-! ## Designs -/

/-- The design that an element describes. -/
def ofElement (root : Element) : Except Failure Model := do
  if root.label.name != "model" then throw (.fault (.notAModel root.label.name))
  let (forest, declarations) ← (components none root.children).run .empty
  if forest.isEmpty then throw (.fault .emptyModel)
  return Model.ofForest declarations forest

/-- Reads the description of a design. -/
def read (text : String) : Except Failure Model :=
  match Element.ofText? text with
  | some root => ofElement root
  | none => .error (.fault .malformedXml)

/-- What is read from a text is the design of an element, whatever the text looks like. -/
theorem read_eq_ok_iff {text : String} {m : Model} :
    read text = .ok m ↔ ∃ root, Element.ofText? text = some root ∧ ofElement root = .ok m := by
  unfold read
  cases Element.ofText? text <;> simp

end RegLayer.Description
