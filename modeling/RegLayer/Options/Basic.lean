/-
# `RegLayer.Options.Basic` — what an export can be asked to do

Eight options steer an export.  Seven of them can be set by name, with a text for the value; the
naming style and the container can also be chosen directly, and are then views on two of the
switches.  The eighth, the table of variables, comes from a settings file or the command line.

A change answers whether it was accepted, and beside the answer it returns the options as it
leaves them (`setByName`, `update`).  So what holds after a refusal is said by the change itself.
`set` and `change` are for somebody who stops at a refusal, `changeOrKeep` for somebody who goes
on.
-/
import RegLayer.Fault
import RegLayer.Text.Blank
import RegLayer.Variables

namespace RegLayer

/-- How classes are named. -/
inductive NamingStyle where
  /-- After the scopes that their types are declared in, so that instances share classes. -/
  | lexical
  /-- After the path of the instance, so that nothing is shared. -/
  | hierarchical
  deriving DecidableEq, Repr

/-- What the generated code is wrapped in. -/
inductive ContainerStyle where
  | package
  /-- An includable file behind an include guard. -/
  | header
  deriving DecidableEq, Repr

/-- The options of an export. -/
structure Options where
  asPackage : Bool := true
  shareClasses : Bool := true
  useFactory : Bool := false
  upperCaseNames : Bool := false
  coverage : Bool := false
  enhancedRegisters : Bool := false
  templateDir : Option String := none
  /-- Variables of the banner beyond those that every banner has. -/
  userVariables : Variables := .empty
  deriving DecidableEq, Repr

namespace Options

/-! ## Views -/

def namingStyle (o : Options) : NamingStyle :=
  if o.shareClasses then .lexical else .hierarchical

def containerStyle (o : Options) : ContainerStyle :=
  if o.asPackage then .package else .header

def setNamingStyle (o : Options) (style : NamingStyle) : Options :=
  { o with shareClasses := style == .lexical }

def setContainerStyle (o : Options) (style : ContainerStyle) : Options :=
  { o with asPackage := style == .package }

/-! ## Setting by name -/

/-- Reads a switch in any mix of cases.  ASCII letters are enough: no other letter has a lower
case that one of these words contains. -/
def switch? (value : String) : Option Bool :=
  match String.ofList ((Text.trimChars value.toList).map Char.toLower) with
  | "true" | "1" | "yes" | "on" => some true
  | "false" | "0" | "no" | "off" => some false
  | _ => none

/-- The options that are switches, by name. -/
def switchSetter? : String → Option (Options → Bool → Options)
  | "export_as_package" => some fun o b => { o with asPackage := b }
  | "reuse_class_definitions" => some fun o b => { o with shareClasses := b }
  | "use_uvm_factory" => some fun o b => { o with useFactory := b }
  | "use_uppercase_inst_name" => some fun o b => { o with upperCaseNames := b }
  | "has_coverage" => some fun o b => { o with coverage := b }
  | "use_uvm_reg_enhanced" => some fun o b => { o with enhancedRegisters := b }
  | _ => none

/-- The name of the option for the template directory. -/
def templateDirName : String := "user_template_dir"

/-- The name of the table of variables, which can only be given in a settings file. -/
def variablesName : String := "user_template_context"

/-- Reads the value of a switch. -/
def readSwitch (name value : String) : Except Failure Bool :=
  match switch? value with
  | some b => .ok b
  | none => .error (.fault (.notASwitch name value))

/-- Sets an option by name.  Beside the answer stand the options as they are left, whatever the
answer. -/
def setByName (o : Options) (name value : String) : Except Failure Unit × Options :=
  match switchSetter? name with
  | some setter =>
    match readSwitch name value with
    | .ok b => (.ok (), setter o b)
    | .error e => (.error e, o)
  | none =>
    if name = templateDirName then (.ok (), { o with templateDir := some value })
    else (.error (.fault (.unknownOption name)), o)

/-- Sets an option by name, for somebody who stops when that is refused. -/
def set (o : Options) (name value : String) : Except Failure Options :=
  Prod.snd <$> orStop (o.setByName name value)

/-! ## Changes -/

/-- One change of the options. -/
inductive Change where
  | set (name value : String)
  | naming (style : NamingStyle)
  | container (style : ContainerStyle)
  deriving DecidableEq, Repr

/-- What a change is answered, and the options as it leaves them. -/
def update (o : Options) : Change → Except Failure Unit × Options
  | .set name value => o.setByName name value
  | .naming style => (.ok (), o.setNamingStyle style)
  | .container style => (.ok (), o.setContainerStyle style)

/-- The options after a change, for somebody who stops when it is refused. -/
def change (o : Options) (c : Change) : Except Failure Options :=
  Prod.snd <$> orStop (o.update c)

/-- The options as a change leaves them, accepted or refused. -/
def changeOrKeep (o : Options) (c : Change) : Options :=
  (o.update c).2

end Options

end RegLayer
