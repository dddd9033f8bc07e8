/-
# `RegLayer.Fault` — why there is no answer

A run ends without an answer in one of two ways.  A *fault* is reported: it has a kind, which says
who can mend it, and a message.  An *abort* is not reported: a number left its word, or a device
description broke a rule that is checked by stopping at once.  The two are kept apart, so that
"never aborts" can be said of a function.

Every fault is a constructor with the data of its message, and message and kind are functions of
it.  So a proof names the fault, and what it says follows.  Where a text is not well-formed the
message gives only the reader that refused it, not the place of the mistake.
-/

namespace RegLayer

/-! ## Faults -/

/-- What the file system refused. -/
inductive FileFault where
  | notFound
  | alreadyExists
  | notADirectory
  | isADirectory
  | nameTooLong
  | notText
  | other (reason : String)
  deriving DecidableEq, Repr

/-- The refusal in the system's words. -/
def FileFault.message : FileFault → String
  | .notFound => "No such file or directory (os error 2)"
  | .alreadyExists => "File exists (os error 17)"
  | .notADirectory => "Not a directory (os error 20)"
  | .isADirectory => "Is a directory (os error 21)"
  | .nameTooLong => "File name too long (os error 36)"
  | .notText => "stream did not contain valid UTF-8"
  | .other reason => reason

/-- Who can mend a fault: the options, the type names, an access policy, the design, or the
file system. -/
inductive FaultKind where
  | invalidConfiguration
  | namespaceCollision
  | unrecognizedAccessPolicy
  | model
  | io
  deriving DecidableEq, Repr

/-- Everything that is reported instead of an answer. -/
inductive Fault where
  /-- No option has this name. -/
  | unknownOption (name : String)
  /-- A switch was given something else than a yes or a no. -/
  | notASwitch (option value : String)
  /-- A settings text that cannot be read as options. -/
  | malformedSettings
  /-- A fault in the settings file at `path`. -/
  | inSettings (path : String) (cause : Fault)
  /-- A variable definition without a name or a value. -/
  | malformedDefinition (text : String)
  /-- A template names a variable that nobody defined. -/
  | undefinedVariable (name : String)
  | missingTemplates (path : String)
  | invalidOutput (path : String)
  | noPackageName (path : String)
  | noIncludeGuard (path : String)
  /-- Two declarations, or one that is not known, want the same class name. -/
  | classNameTaken (name : String)
  | unknownPolicy (text : String)
  | unknownReadEffect (text : String)
  | unknownWriteEffect (text : String)
  | notANumber (text : String)
  | malformedXml
  | malformedDevice
  | notAModel (root : String)
  | emptyModel
  | missingAttribute (element key : String)
  | unknownComponent (element : String)
  /-- A field outside a register, or something else inside one. -/
  | misplaced (element name parent : String)
  | topNotAMap (name element : String)
  | notAFlag (key value : String)
  | zeroWidth (element key : String)
  | outOfRange (element key : String) (value : UInt64)
  | fieldUpsideDown (lsb : UInt32) (msb : UInt64)
  | missingStride (name : String)
  | unknownBase (peripheral base : String)
  | derivedBase (peripheral base : String)
  /-- A field array whose index list has another length than the array. -/
  | indexCount (register field : String)
  | fieldOutside (register field : String) (lsb end_ width : UInt32)
  | notExportable (name kind : String)
  | noSuchTop (name : String)
  | noTop (path : String)
  /-- A fault in the description file at `path`. -/
  | inFile (path : String) (cause : Fault)
  | file (cause : FileFault)
  deriving DecidableEq, Repr

namespace Fault

/-- The kind of a fault; a fault inside a description file keeps its own kind. -/
def kind : Fault → FaultKind
  | unknownOption _ | notASwitch _ _ | malformedSettings | inSettings _ _
  | malformedDefinition _ | undefinedVariable _ | missingTemplates _ | invalidOutput _
  | noPackageName _ | noIncludeGuard _ => .invalidConfiguration
  | classNameTaken _ => .namespaceCollision
  | unknownPolicy _ | unknownReadEffect _ | unknownWriteEffect _ => .unrecognizedAccessPolicy
  | inFile _ cause => cause.kind
  | file _ => .io
  | _ => .model

/-- The message of a fault.  Faults in a text that is not well-formed give only the reader that
refused it. -/
def message : Fault → String
  | unknownOption name => "Unrecognized export option '" ++ name ++ "'"
  | notASwitch option value =>
    "Option '" ++ option ++ "' expects a boolean, got '" ++ value ++ "'"
  | malformedSettings => "toml::de::Error"
  | inSettings path cause => "Invalid options file " ++ path ++ ": " ++ cause.message
  | malformedDefinition text => "Template variable must be NAME=VALUE, got '" ++ text ++ "'"
  | undefinedVariable name => "Template variable '" ++ name ++ "' is undefined"
  | missingTemplates path => "Template directory " ++ path ++ " does not exist"
  | invalidOutput path => "Invalid output path " ++ path
  | noPackageName path => "Cannot derive a package name from " ++ path
  | noIncludeGuard path => "Cannot derive an include guard from " ++ path
  | classNameTaken name =>
    "Namespace collision on class '" ++ name ++
      "': type-name generation is not robust enough to create unique names"
  | unknownPolicy text => "Unrecognized access policy '" ++ text ++ "'"
  | unknownReadEffect text => "Unrecognized onread side effect '" ++ text ++ "'"
  | unknownWriteEffect text => "Unrecognized onwrite side effect '" ++ text ++ "'"
  | notANumber text => "'" ++ text ++ "' is not a number"
  | malformedXml => "xmltree::ParseError"
  | malformedDevice => "anyhow::Error"
  | notAModel root => "Expected a <model> document, found <" ++ root ++ ">"
  | emptyModel => "Model contains no top-level components"
  | missingAttribute element key =>
    "<" ++ element ++ "> is missing its '" ++ key ++ "' attribute"
  | unknownComponent element => "Unknown component <" ++ element ++ ">"
  | misplaced element name parent =>
    "<" ++ element ++ "> '" ++ name ++ "' cannot be placed inside '" ++ parent ++ "'"
  | topNotAMap name element =>
    "Top-level component '" ++ name ++ "' must be an <addrmap>, found <" ++ element ++ ">"
  | notAFlag key value => "Attribute '" ++ key ++ "' expects a boolean, got '" ++ value ++ "'"
  | zeroWidth element key =>
    "<" ++ element ++ "> attribute '" ++ key ++ "' must be greater than zero"
  | outOfRange element key value =>
    "<" ++ element ++ "> attribute '" ++ key ++ "' is out of range: " ++ value.toNat.repr
  | fieldUpsideDown lsb msb =>
    "Field msb " ++ msb.toNat.repr ++ " is below its lsb " ++ lsb.toNat.repr
  | missingStride name => "Array '" ++ name ++ "' has dimensions but no stride"
  | unknownBase peripheral base =>
    "Peripheral " ++ peripheral ++ " is derived from unknown peripheral '" ++ base ++ "'"
  | derivedBase peripheral base =>
    "Peripheral " ++ peripheral ++ ": base peripheral '" ++ base ++ "' is itself derived"
  | indexCount register field =>
    "Field " ++ register ++ "." ++ field ++
      ": 'dim' element must have the same value as the length of 'dimIndex'"
  | fieldOutside register field lsb end_ width =>
    "Field " ++ register ++ "." ++ field ++ " (bits " ++ lsb.toNat.repr ++ ".." ++
      end_.toNat.repr ++ ") does not fit in a " ++ width.toNat.repr ++ " bit register"
  | notExportable name kind =>
    "Export top '" ++ name ++ "' must be an address map, not a " ++ kind
  | noSuchTop name => "No top-level address map named '" ++ name ++ "'"
  | noTop path => path ++ " contains no address map"
  | inFile path cause => path ++ ": " ++ cause.message
  | file cause => "std::io::Error " ++ cause.message

end Fault

/-! ## Aborts -/

/-- Why a run stops at once. -/
inductive Abort where
  /-- A sum, difference or product left its word. -/
  | overflow
  /-- A flag of the processor section is empty. -/
  | emptyFlag
  /-- A list of fields holds something else. -/
  | strayField
  /-- An array's name has no place for the index. -/
  | arrayName
  /-- An array's index list cannot be read or has the wrong length. -/
  | arrayIndex
  deriving DecidableEq, Repr

/-- Why there is no answer. -/
inductive Failure where
  | fault (cause : Fault)
  | abort (cause : Abort)
  deriving DecidableEq, Repr

/-- What somebody sees of work on a state who stops when it fails: the state is then lost. -/
def orStop {α σ : Type} : Except Failure α × σ → Except Failure (α × σ)
  | (.ok a, s) => .ok (a, s)
  | (.error e, _) => .error e

end RegLayer
