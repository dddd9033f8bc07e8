/-
# `RegLayer.Classes.Code` — classes as text

The generated code is a list of lines per class: the comment and the heading, the members, the
constructor and the function that builds and maps the members.  `Body.lines` is defined shape by
shape, and every line of it is written by a function of its own, so that a proof can look at one
line.

The style of the code says how objects are made, whether coverage is collected, and which base
class registers have; it changes no member.  A description becomes comment lines above the
heading, one for each line of the description, and stands nowhere else.  Arrays are declared with
their dimensions, and built and mapped in loops over them.

The text follows the verification library's own idiom for register models.  That a simulator
accepts it is not stated anywhere here.
-/
import RegLayer.Classes.Body

namespace RegLayer.Classes

/-- Choices about the code that do not concern what the classes say. -/
structure CodeStyle where
  useFactory : Bool
  coverage : Bool
  enhancedRegisters : Bool
  deriving DecidableEq, Repr

/-- A line indented by so many steps. -/
def indented (steps : Nat) (line : String) : String :=
  String.join (List.replicate steps "    ") ++ line

/-- A flag as the generated code writes it. -/
def flagText (b : Bool) : String :=
  if b then "1" else "0"

def number32 (n : UInt32) : String :=
  n.toNat.repr

def number64 (n : UInt64) : String :=
  n.toNat.repr

/-- A text between double quotes. -/
def inQuotes (s : String) : String :=
  "\"" ++ s ++ "\""

/-! ## Parts -/

/-- A description as comment lines. -/
def descriptionLines : Option String → List String
  | none => []
  | some text => (Text.lines text).map fun line => "// " ++ Text.trim line

/-- The comment above a class and its first lines. -/
def headingLines (style : CodeStyle) (h : Heading) (base : String) : List String :=
  ["// " ++ h.friendlyName] ++ descriptionLines h.description ++
    ["class " ++ h.className ++ " extends " ++ base ++ ";"] ++
    if style.useFactory then [indented 1 ("`uvm_object_utils(" ++ h.className ++ ")")] else []

/-- The expression that makes an object of a class. -/
def creation (style : CodeStyle) (className name : String) : String :=
  if style.useFactory then className ++ "::type_id::create(" ++ name ++ ")"
  else "new(" ++ name ++ ")"

/-- The constructor of a class, with these calls inside. -/
def constructorLines (className : String) (calls : List String) : List String :=
  [indented 1 ("function new(string name = " ++ inQuotes className ++ ");")] ++ calls ++
    [indented 1 "endfunction : new"]

/-- The function that builds the members, with these calls inside, and the end of the class. -/
def buildLines (className : String) (calls : List String) : List String :=
  [indented 1 "virtual function void build();"] ++ calls ++
    [indented 1 "endfunction : build", "endclass : " ++ className, ""]

/-! ## Registers -/

/-- The highest bit of a field's value. -/
def topBit (width : UInt32) : Nat :=
  width.toNat - 1

def coverpointLine (f : FieldMember) : String :=
  indented 2 (f.name ++ ": coverpoint " ++ f.name ++ ".value[" ++ (topBit f.width).repr ++ ":0];")

def covergroupLines (fields : List FieldMember) : List String :=
  ["", indented 1 "covergroup cg_vals;", indented 2 "option.per_instance = 1;"] ++
    fields.map coverpointLine ++ [indented 1 "endgroup"]

/-- The arguments with which a field is configured after the register itself; `sole` says that it
is the register's only field. -/
def configureArguments (sole : Bool) (f : FieldMember) : List String :=
  [number32 f.width, number32 f.lsb, inQuotes f.code.text, flagText f.isVolatile,
    (f.reset.map Text.hexConstant).getD "0", flagText f.reset.isSome, flagText f.writable,
    flagText sole]

/-- The calls that make and configure a field. -/
def fieldLines (style : CodeStyle) (sole : Bool) (f : FieldMember) : List String :=
  [indented 2 ("this." ++ f.name ++ " = " ++
      creation style "uvm_reg_field" (inQuotes f.name) ++ ";"),
    indented 2 ("this." ++ f.name ++ ".configure(" ++
      Text.join ", " ("this" :: configureArguments sole f) ++ ");")]

def registerLines (style : CodeStyle) (h : Heading) (width : UInt32)
    (fields : List FieldMember) : List String :=
  let covered := style.coverage && !fields.isEmpty
  headingLines style h (if style.enhancedRegisters then "uvm_reg_enhanced" else "uvm_reg") ++
    fields.map (fun f => indented 1 ("rand uvm_reg_field " ++ f.name ++ ";")) ++
    (if covered then covergroupLines fields else []) ++
    [""] ++
    constructorLines h.className
      (if covered then
        [indented 2 ("super.new(name, " ++ number32 width ++
            ", build_coverage(UVM_CVR_FIELD_VALS));"),
          indented 2 "if (has_coverage(UVM_CVR_FIELD_VALS))",
          indented 3 "cg_vals = new();"]
      else [indented 2 ("super.new(name, " ++ number32 width ++ ", UVM_NO_COVERAGE);")]) ++
    (if covered then
      ["", indented 1 "virtual function void sample_values();",
        indented 2 "super.sample_values();",
        indented 2 "if (get_coverage(UVM_CVR_FIELD_VALS))",
        indented 3 "cg_vals.sample();",
        indented 1 "endfunction : sample_values"]
    else []) ++
    [""] ++
    buildLines h.className (fields.flatMap (fieldLines style (fields.length == 1)))

/-! ## Blocks -/

/-- The constructor of a block. -/
def blockConstructorLines (style : CodeStyle) (className : String) : List String :=
  constructorLines className
    [indented 2 (if style.coverage then "super.new(name, build_coverage(UVM_CVR_ADDR_MAP));"
      else "super.new(name, UVM_NO_COVERAGE);")]

/-- The call that makes the map of a block. -/
def mapLine (busBytes : UInt32) (endianness : Endianness) : String :=
  indented 2 ("this.default_map = create_map(\"reg_map\", 0, " ++ number32 busBytes ++ ", " ++
    endianness.text ++ ");")

/-- The dimensions of a member as its declaration writes them. -/
def dimsText (dims : Option (List UInt64)) : String :=
  String.join ((dims.getD []).map fun d => "[" ++ number64 d ++ "]")

def declarationLine (c : Member) : String :=
  indented 1 ("rand " ++ c.className ++ " " ++ c.name ++ dimsText c.dims ++ ";")

/-- The loop variables of an array with these dimensions. -/
def loopVariables (dims : List UInt64) : List String :=
  (List.range dims.length).map Offset.loopVariable

/-- The call that puts a component into the map of its block. -/
def mappingCall (c : Member) (target : String) : String :=
  match c.mapping with
  | .register code =>
    "this.default_map.add_reg(" ++ target ++ ", " ++ c.offset.text ++ ", " ++
      inQuotes code.text ++ ");"
  | .submap =>
    "this.default_map.add_submap(" ++ target ++ ".default_map, " ++ c.offset.text ++ ");"

/-- The calls that make, configure, build and map one component. -/
def componentCalls (style : CodeStyle) (c : Member) (target name : String) : List String :=
  [target ++ " = " ++ creation style c.className name ++ ";",
    target ++ ".configure(this);",
    target ++ ".build();",
    mappingCall c target]

/-- The calls for a component, in a loop over the elements if it is an array. -/
def memberLines (style : CodeStyle) (c : Member) : List String :=
  match c.dims with
  | none => (componentCalls style c ("this." ++ c.name) (inQuotes c.name)).map (indented 2)
  | some dims =>
    let vars := loopVariables dims
    let subscripts := String.join (vars.map fun v => "[" ++ v ++ "]")
    let marks := String.join (vars.map fun _ => "[%0d]")
    [indented 2 ("foreach(this." ++ c.name ++ "[" ++ Text.join ", " vars ++ "]) begin")] ++
      (componentCalls style c ("this." ++ c.name ++ subscripts)
        ("$sformatf(" ++ inQuotes (c.name ++ marks) ++ ", " ++ Text.join ", " vars ++ ")")).map
          (indented 3) ++
      [indented 2 "end"]

def blockLines (style : CodeStyle) (h : Heading) (busBytes : UInt32) (endianness : Endianness)
    (members : List Member) : List String :=
  headingLines style h "uvm_reg_block" ++ members.map declarationLine ++ [""] ++
    blockConstructorLines style h.className ++ [""] ++
    buildLines h.className (mapLine busBytes endianness :: members.flatMap (memberLines style))

/-! ## Memories -/

def memoryLines (style : CodeStyle) (h : Heading) (busBytes : UInt32) (endianness : Endianness)
    (entries : UInt64) (width : UInt32) (code : AccessCode) : List String :=
  headingLines style h "uvm_reg_block" ++ [indented 1 "rand uvm_mem m_mem;", ""] ++
    blockConstructorLines style h.className ++ [""] ++
    buildLines h.className
      [mapLine busBytes endianness,
        indented 2 ("this.m_mem = new(\"m_mem\", " ++ number64 entries ++ ", " ++
          number32 width ++ ", " ++ inQuotes code.text ++ ");"),
        indented 2 "this.m_mem.configure(this);",
        indented 2 "this.default_map.add_mem(this.m_mem, 0);"]

/-! ## Classes -/

/-- The lines of a class. -/
def Body.lines (style : CodeStyle) : Body → List String
  | register h width fields => registerLines style h width fields
  | block h busBytes endianness members => blockLines style h busBytes endianness members
  | memory h busBytes endianness entries width code =>
    memoryLines style h busBytes endianness entries width code

end RegLayer.Classes
