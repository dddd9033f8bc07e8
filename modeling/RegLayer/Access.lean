/-
# `RegLayer.Access` — what software may do with a field

A field or memory has an access policy, and reading or writing a field may have a side effect.
Descriptions name all three by words, which are read without the white space around them and
otherwise exactly as they are written; each kind of word has its own fault (`readPolicy`,
`readReadEffect`, `readWriteEffect`, all of one shape).

The verification library knows one access code for each combination that it supports, and no
more.  `accessCode` picks one: a code for both effects comes before one for the write effect, and
that before one for the read effect.  A combination without a code of its own is not refused but
loses an effect, so two fields that behave differently can be written alike.

| | |
| :-- | :-- |
| `Policy` | who may read and write, and how often |
| `ReadEffect`, `WriteEffect` | what an access does to the bits |
| `AccessCode` | the code under which the field, register or memory is configured |
-/
import RegLayer.Fault
import RegLayer.Text.Blank

namespace RegLayer

/-! ## Policies and side effects -/

/-- What software may do. -/
inductive Policy where
  | readOnly
  | writeOnly
  | readWrite
  /-- Readable, and writable once after reset. -/
  | readWriteOnce
  /-- Not readable, and writable once after reset. -/
  | writeOnce
  | noAccess
  deriving DecidableEq, Repr

/-- What a read does to the field. -/
inductive ReadEffect where
  | clears
  | sets
  deriving DecidableEq, Repr

/-- What a write does to the field: by the ones written, by the zeros written, or by any write. -/
inductive WriteEffect where
  | oneClears
  | oneSets
  | oneToggles
  | zeroClears
  | zeroSets
  | zeroToggles
  | clears
  | sets
  deriving DecidableEq, Repr

namespace Policy

/-- Whether software can write at all. -/
def canWrite : Policy → Bool
  | writeOnly | readWrite | readWriteOnce | writeOnce => true
  | readOnly | noAccess => false

/-- The policy that a description's word names. -/
def ofWord? : String → Option Policy
  | "r" => some readOnly
  | "w" => some writeOnly
  | "rw" | "wr" => some readWrite
  | "rw1" | "wr1" => some readWriteOnce
  | "w1" => some writeOnce
  | "na" => some noAccess
  | _ => none

end Policy

/-- The read effect that a description's word names. -/
def ReadEffect.ofWord? : String → Option ReadEffect
  | "rclr" => some .clears
  | "rset" => some .sets
  | _ => none

/-- The write effect that a description's word names. -/
def WriteEffect.ofWord? : String → Option WriteEffect
  | "woclr" => some .oneClears
  | "woset" => some .oneSets
  | "wot" => some .oneToggles
  | "wzc" => some .zeroClears
  | "wzs" => some .zeroSets
  | "wzt" => some .zeroToggles
  | "wclr" => some .clears
  | "wset" => some .sets
  | _ => none

/-- What a word names, read without the white space around it. -/
def readWord {α : Type} (ofWord? : String → Option α) (refusal : String → Fault)
    (text : String) : Except Failure α :=
  match ofWord? (Text.trim text) with
  | some a => .ok a
  | none => .error (.fault (refusal (Text.trim text)))

def readPolicy : String → Except Failure Policy :=
  readWord Policy.ofWord? .unknownPolicy

def readReadEffect : String → Except Failure ReadEffect :=
  readWord ReadEffect.ofWord? .unknownReadEffect

def readWriteEffect : String → Except Failure WriteEffect :=
  readWord WriteEffect.ofWord? .unknownWriteEffect

/-! ## Access codes -/

/-- The access codes of the verification library. -/
inductive AccessCode where
  | rw | ro | wo
  | w1c | w1s | w1t | w0c | w0s | w0t | wc | ws
  | rc | rs | wrc | wrs
  | w1src | w0src | wsrc | w1crs | w0crs | wcrs
  | woc | wos
  | w1 | wo1
  | noAccess
  deriving DecidableEq, Repr

/-- The code as the generated code writes it. -/
def AccessCode.text : AccessCode → String
  | rw => "RW"
  | ro => "RO"
  | wo => "WO"
  | w1c => "W1C"
  | w1s => "W1S"
  | w1t => "W1T"
  | w0c => "W0C"
  | w0s => "W0S"
  | w0t => "W0T"
  | wc => "WC"
  | ws => "WS"
  | rc => "RC"
  | rs => "RS"
  | wrc => "WRC"
  | wrs => "WRS"
  | w1src => "W1SRC"
  | w0src => "W0SRC"
  | wsrc => "WSRC"
  | w1crs => "W1CRS"
  | w0crs => "W0CRS"
  | wcrs => "WCRS"
  | woc => "WOC"
  | wos => "WOS"
  | w1 => "W1"
  | wo1 => "WO1"
  | noAccess => "NOACCESS"

/-- The code for both effects of a field that can be read and written, where there is one. -/
def bothEffectsCode? : ReadEffect → WriteEffect → Option AccessCode
  | .clears, .oneSets => some .w1src
  | .clears, .zeroSets => some .w0src
  | .clears, .sets => some .wsrc
  | .sets, .oneClears => some .w1crs
  | .sets, .zeroClears => some .w0crs
  | .sets, .clears => some .wcrs
  | _, _ => none

/-- The code for the write effect of a field that can be read and written. -/
def writeEffectCode : WriteEffect → AccessCode
  | .oneClears => .w1c
  | .oneSets => .w1s
  | .oneToggles => .w1t
  | .zeroClears => .w0c
  | .zeroSets => .w0s
  | .zeroToggles => .w0t
  | .clears => .wc
  | .sets => .ws

/-- The code of a field that can be read and written at any time. -/
def readWriteCode : Option ReadEffect → Option WriteEffect → AccessCode
  | none, none => .rw
  | some .clears, none => .wrc
  | some .sets, none => .wrs
  | none, some w => writeEffectCode w
  | some r, some w => (bothEffectsCode? r w).getD (writeEffectCode w)

/-- The access code of a field. -/
def accessCode (policy : Policy) (onRead : Option ReadEffect) (onWrite : Option WriteEffect) :
    AccessCode :=
  match policy with
  | .readWrite => readWriteCode onRead onWrite
  | .readOnly =>
    match onRead with
    | none => .ro
    | some .clears => .rc
    | some .sets => .rs
  | .writeOnly =>
    match onWrite with
    | some .clears => .woc
    | some .sets => .wos
    | _ => .wo
  | .readWriteOnce => .w1
  | .writeOnce => .wo1
  | .noAccess => .noAccess

/-- The access code of a memory, which is read-only or not. -/
def Policy.memoryCode : Policy → AccessCode
  | readOnly => .ro
  | _ => .rw

end RegLayer
