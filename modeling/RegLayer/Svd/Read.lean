/-
# `RegLayer.Svd.Read` — device descriptions as elements

Every property of a device is a child element with a text, and of several with one name the first
counts.  The elements and their rules are those of CMSIS-SVD, read in the order and with the
strictness of the `svd-parser` library (0.9):

* what has no place in the device is read, too, if it can be wrong: reset masks, address blocks,
  interrupts, named values and write constraints have to be well-formed;
* numbers are decimal, hexadecimal after `0x`, or binary after `#` or `0b`, where an `x` leaves a
  digit open, and they have 32 bits; a scaling suffix is not known;
* the bits of a field are given in one of three ways, and a range in brackets goes first;
* a repetition needs a place for its index in the name, and its list of indices, if it has one, is
  as long as it is;
* the name of the root element does not matter, and a byte order mark may stand before it.

All mistakes are one fault (`malformed`), whose message does not tell them apart.  A few of them
stop the reading at once instead (`stop`): an empty flag, something else than a field among the
fields, an array without a place for the index or with indices that cannot be read, and a number
that leaves its word.  Which of several mistakes is met first depends on the order of reading, and
so does whether a description is refused or stops the run; that is why the order is kept.

The reader gives words, and what a word stands for is said where the words are
(`RegLayer.Svd.Device`).
-/
import RegLayer.Svd.Device
import RegLayer.Xml.Element

namespace RegLayer.Svd.Read

open Xml

/-- Reading can fail. -/
abbrev Result (α : Type) := Except Failure α

def malformed {α : Type} : Result α :=
  .error (.fault .malformedDevice)

def stop {α : Type} (cause : Abort) : Result α :=
  .error (.abort cause)

def orMalformed {α : Type} : Option α → Result α
  | some a => .ok a
  | none => malformed

/-! ## Child elements -/

def child (e : Element) (name : String) : Result Element :=
  orMalformed (e.child? name)

/-- What is read from a child element, if there is one. -/
def optional {α : Type} (e : Element) (name : String) (read : Element → Result α) :
    Result (Option α) :=
  match e.child? name with
  | some c => some <$> read c
  | none => .ok none

/-- Reads all child elements of this name. -/
def each {α : Type} (e : Element) (name : String) (read : Element → Result α) :
    Result (List α) :=
  (e.children.filter fun c => c.label.name == name).mapM read

/-! ## Texts -/

def text (e : Element) : Result String :=
  orMalformed e.label.text

def number10? (cs : List Char) : Option UInt32 :=
  (Text.unsigned? 10 cs).bind Text.word32?

/-- Binary digits, in which some characters leave a digit open; it is then taken as zero. -/
def binary? (isOpen : Char → Bool) (cs : List Char) : Option Nat :=
  Text.unsigned? 2 (cs.map fun c => if isOpen c then '0' else c)

/-- The value of a number: hexadecimal, binary or decimal. -/
def value? (cs : List Char) : Option Nat :=
  match cs with
  | '0' :: 'x' :: ds => Text.unsigned? 16 ds
  | '0' :: 'X' :: ds => Text.unsigned? 16 ds
  | '#' :: ds => binary? (fun c => c == 'x' || c == 'X') ds
  | '0' :: 'b' :: ds => binary? (· == 'x') ds
  | _ => Text.unsigned? 10 cs

def number (e : Element) : Result UInt32 := do
  orMalformed ((value? (← text e).toList).bind Text.word32?)

/-- Reads a yes or no.  An element without a text stops the reading. -/
def flag (e : Element) : Result Bool :=
  match e.label.text with
  | none => stop .emptyFlag
  | some "0" | some "false" => .ok false
  | some "1" | some "true" => .ok true
  | some _ => malformed

/-- Reads a word from a list of words. -/
def word {α : Type} (meaning? : String → Option α) (e : Element) : Result α := do
  orMalformed (meaning? (← text e))

/-! ## Properties of registers -/

def accessWord? : String → Option AccessWord
  | "read-only" => some .readOnly
  | "read-write" => some .readWrite
  | "read-writeOnce" => some .readWriteOnce
  | "write-only" => some .writeOnly
  | "writeOnce" => some .writeOnce
  | _ => none

def writeWord? : String → Option WriteWord
  | "oneToClear" => some .oneToClear
  | "oneToSet" => some .oneToSet
  | "oneToToggle" => some .oneToToggle
  | "zeroToClear" => some .zeroToClear
  | "zeroToSet" => some .zeroToSet
  | "zeroToToggle" => some .zeroToToggle
  | "clear" => some .clear
  | "set" => some .set
  | "modify" => some .modify
  | _ => none

def defaults (e : Element) : Result Defaults := do
  let size ← optional e "size" number
  let resetValue ← optional e "resetValue" number
  let _ ← optional e "resetMask" number
  let access ← optional e "access" (word accessWord?)
  return ⟨size, resetValue, access.map (·.policy)⟩

/-- Reads what may be written: a single rule of three kinds. -/
def writeConstraint (e : Element) : Result Unit :=
  match e.children with
  | [rule] =>
    match rule.label.name with
    | "writeAsRead" | "useEnumeratedValues" => do
      let _ ← flag rule
    | "range" => do
      let _ ← number (← child rule "minimum")
      let _ ← number (← child rule "maximum")
    | _ => malformed
  | _ => malformed

/-! ## Repetition -/

/-- The numbers of a range as texts; the number after its end has to be a word. -/
def range (first last : UInt32) : Result (List String) := do
  let end_ ← Checked.add32 last 1
  return (List.range' first.toNat (end_.toNat - first.toNat)).map Nat.repr

/-- Reads what tells repetitions apart: a range of numbers, or a list. -/
def indices (e : Element) : Result (List String) := do
  let cs := (← text e).toList
  match Text.cut '-' cs with
  | first :: _ :: _ =>
    match number10? first, number10? (cs.drop (first.length + 1)) with
    | some a, some b => range a b
    | _, _ => stop .arrayIndex
  | _ => if cs.contains ',' then return Text.split ',' (← text e) else stop .arrayIndex

/-- Reads how something is repeated, if it is: then its name needs a place for the index, and as
many indices as repetitions, if there are any. -/
def repetition (e : Element) (name : String) (noPlace noIndices : Result Unit) :
    Result (Option Repetition) :=
  match e.child? "dimIncrement" with
  | none => return none
  | some _ => do
    let count ← number (← child e "dim")
    let increment ← number (← child e "dimIncrement")
    let indices ← optional e "dimIndex" indices
    unless Text.contains name "%s" do noPlace
    unless indices.all (·.length == count.toNat) do noIndices
    return some ⟨count, increment, indices⟩

/-! ## Fields -/

/-- The bits from the lowest to the highest one. -/
def bitsUpTo (lsb msb : UInt32) : Result BitRange := do
  return ⟨lsb, ← Checked.add32 (← Checked.sub32 msb lsb) 1⟩

/-- Reads a range of bits in brackets, with the highest bit first. -/
def bracketed (e : Element) : Result BitRange := do
  match (← text e).toList with
  | '[' :: cs =>
    if cs.getLast? != some ']' then malformed
    match Text.cut ':' cs.dropLast with
    | high :: low :: _ =>
      let msb ← orMalformed (number10? high)
      let lsb ← orMalformed (number10? low)
      bitsUpTo lsb msb
    | _ => malformed
  | _ => malformed

/-- Reads the bits of a field, which can be given in three ways. -/
def bitRange (e : Element) : Result BitRange :=
  match e.child? "bitRange", e.child? "lsb", e.child? "msb" with
  | some range, _, _ => bracketed range
  | none, some low, some high => do
    let msb ← number high
    let lsb ← number low
    bitsUpTo lsb msb
  | none, _, _ => do
    let lsb ← number (← child e "bitOffset")
    let width ← number (← child e "bitWidth")
    return ⟨lsb, width⟩

def usage? : String → Option Unit
  | "read" | "write" | "read-write" => some ()
  | _ => none

/-- Reads whether a named value is the default.  Only a missing text matters. -/
def isDefault (e : Element) : Result Unit :=
  match e.child? "isDefault" with
  | none => return ()
  | some c =>
    match flag c with
    | .error (.abort cause) => stop cause
    | _ => return ()

def namedValue (e : Element) : Result Unit := do
  let _ ← text (← child e "name")
  let _ ← optional e "description" text
  let _ ← optional e "value" number
  isDefault e

/-- What may stand beside the values in a list of named values. -/
def isAboutValues (name : String) : Bool :=
  name == "name" || name == "headerEnumName" || name == "usage"

/-- Reads a list of named values.  It may be empty only if it is like another list. -/
def namedValues (e : Element) : Result Unit := do
  let _ ← optional e "name" text
  let _ ← optional e "usage" (word usage?)
  let values := e.children.filter fun c => !isAboutValues c.label.name
  let _ ← values.mapM fun c =>
    if c.label.name == "enumeratedValue" then namedValue c else malformed
  if values.isEmpty && (e.label.attribute? "derivedFrom").isNone then malformed

def fieldBody (e : Element) : Result Field := do
  let name ← text (← child e "name")
  let description ← optional e "description" text
  let range ← bitRange e
  let access ← optional e "access" (word accessWord?)
  let _ ← each e "enumeratedValues" namedValues
  let _ ← optional e "writeConstraint" writeConstraint
  let onWrite ← optional e "modifiedWriteValues" (word writeWord?)
  let repetition ← repetition e name (stop .arrayName) (stop .arrayIndex)
  return {
    name := name
    description := description
    range := range
    access := access.map (·.policy)
    onWrite := onWrite.map (·.effect?)
    repetition := repetition }

/-- Reads a field; anything else in its place stops the reading. -/
def field (e : Element) : Result Field :=
  if e.label.name == "field" then fieldBody e else stop .strayField

/-! ## Registers and clusters -/

def fields (e : Element) : Result (List Field) :=
  e.children.mapM field

def register (e : Element) : Result Register := do
  let name ← text (← child e "name")
  let description ← optional e "description" text
  let _ ← optional e "alternateGroup" text
  let _ ← optional e "alternateRegister" text
  let offset ← number (← child e "addressOffset")
  let size ← optional e "size" number
  let access ← optional e "access" (word accessWord?)
  let resetValue ← optional e "resetValue" number
  let _ ← optional e "resetMask" number
  let fields ← optional e "fields" fields
  let _ ← optional e "writeConstraint" writeConstraint
  let onWrite ← optional e "modifiedWriteValues" (word writeWord?)
  let repetition ← repetition e name (stop .arrayName) (stop .arrayIndex)
  return {
    name := name
    description := description
    offset := offset
    own := ⟨size, resetValue, access.map (·.policy)⟩
    fields := fields.getD []
    onWrite := onWrite.map (·.effect?)
    repetition := repetition }

/-- Reads what stands before the parts of a cluster. -/
def clusterBody (e : Element) : Result Cluster := do
  let name ← text (← child e "name")
  let description ← optional e "description" text
  let _ ← optional e "headerStructName" text
  let offset ← number (← child e "addressOffset")
  let own ← defaults e
  return {
    name := name
    description := description
    offset := offset
    own := own
    repetition := none }

def isPart (name : String) : Bool :=
  name == "register" || name == "cluster"

mutual

/-- Reads a register or cluster. -/
def part : Element → Result Part
  | .node tag inside =>
    match tag.name with
    | "register" => Part.register <$> register (.node tag inside)
    | "cluster" => do
      let c ← clusterBody (.node tag inside)
      let parts ← partsAmong inside
      let repetition ← repetition (.node tag inside) c.name malformed malformed
      return .cluster { c with repetition := repetition } parts
    | _ => malformed

/-- Reads the registers and clusters among elements; the others do not matter. -/
def partsAmong : List Element → Result (List Part)
  | [] => return []
  | e :: es =>
    if isPart e.label.name then do
      let p ← part e
      return p :: (← partsAmong es)
    else partsAmong es

end

/-- Reads the parts of a peripheral, which have to be registers and clusters. -/
def parts (e : Element) : Result (List Part) :=
  e.children.mapM part

/-! ## Peripherals and the device -/

def addressBlock (e : Element) : Result Unit := do
  let _ ← number (← child e "offset")
  let _ ← number (← child e "size")
  let _ ← text (← child e "usage")

def interrupt (e : Element) : Result Unit := do
  let _ ← text (← child e "name")
  let _ ← optional e "description" text
  let _ ← number (← child e "value")

def peripheralBody (e : Element) : Result Peripheral := do
  let name ← text (← child e "name")
  let _ ← optional e "version" text
  let _ ← optional e "displayName" text
  let _ ← optional e "groupName" text
  let description ← optional e "description" text
  let address ← number (← child e "baseAddress")
  let _ ← optional e "addressBlock" addressBlock
  let _ ← each e "interrupt" interrupt
  let own ← defaults e
  let parts ← optional e "registers" parts
  return {
    name := name
    base := e.label.attribute? "derivedFrom"
    description := description
    address := address
    own := own
    parts := parts }

def peripheral (e : Element) : Result Peripheral :=
  if e.label.name == "peripheral" then peripheralBody e else malformed

def byteOrderWord? : String → Option ByteOrderWord
  | "little" => some .little
  | "big" => some .big
  | "selectable" => some .selectable
  | "other" => some .other
  | _ => none

/-- Reads the description of the processor, of which only the byte order matters. -/
def processor (e : Element) : Result ByteOrderWord := do
  let _ ← text (← child e "name")
  let _ ← text (← child e "revision")
  let order ← word byteOrderWord? (← child e "endian")
  let _ ← flag (← child e "mpuPresent")
  let _ ← flag (← child e "fpuPresent")
  let _ ← number (← child e "nvicPrioBits")
  let _ ← flag (← child e "vendorSystickConfig")
  return order

/-- Reads a device; the name of its element does not matter. -/
def device (e : Element) : Result Device := do
  let name ← text (← child e "name")
  let order ← optional e "cpu" processor
  let _ ← optional e "version" text
  let description ← optional e "description" text
  let _ ← optional e "addressUnitBits" number
  let peripherals ← (← child e "peripherals").children.mapM peripheral
  let own ← defaults e
  return {
    name := name
    description := description
    endianness := (order.map (·.endianness)).getD .unspecified
    own := own
    peripherals := peripherals }

/-- The device that a text describes, which may start with a byte order mark. -/
def deviceOfText (text : String) : Result Device :=
  let cs := match text.toList with
    | '\ufeff' :: cs => cs
    | cs => cs
  match Element.ofText? (String.ofList cs) with
  | some root => device root
  | none => malformed

end RegLayer.Svd.Read
