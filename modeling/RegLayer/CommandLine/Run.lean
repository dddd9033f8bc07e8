/-
# `RegLayer.CommandLine.Run` — one run of the program

A run settles its options, loads the design, and writes the register layer as its last act, so a
run that fails leaves every file as it was.

    options     the settings file, or else the standard options; over them the arguments; last the
                definitions of variables
    design      the input file, read as its format or its extension says, and the map to export:
                the one that is asked for, or the first one (the device's, for a device)
    export      the rendered text, after the folders above the output have been made

It works on any file system that has the five operations of `Files`: on the machine's own
(`RegLayer.Main`), and on a disk that is a value (`RegLayer.Files.Disk`), which is the one that
proofs are about.  What a run prints and logs is part of its outcome.  The outcome has code 0 for
success and for help, 1 for a fault, 2 for a command line that cannot be understood, and 101 where
the run was aborted.

The help is a plain list of the options, in words of this library.  Of the environment only a name
of a level for the log is understood.
-/
import RegLayer.CommandLine.Arguments
import RegLayer.Description
import RegLayer.Layer
import RegLayer.Options.Settings
import RegLayer.Svd.Import

namespace RegLayer.CommandLine

variable {m : Type → Type} [Monad m] [Files m]

/-! ## Options -/

/-- A definition of a variable: a name, an equals sign, and a value. -/
def readDefinition (text : String) : Except Failure (String × String) :=
  match nameAndValue text.toList with
  | (name, some value) =>
    if Text.trim name = "" then .error (.fault (.malformedDefinition text))
    else .ok (Text.trim name, value)
  | (_, none) => .error (.fault (.malformedDefinition text))

/-- The options with what the command line says over them. -/
def Arguments.override (a : Arguments) (o : Options) : Options :=
  let o := match a.container with
    | some style => o.setContainerStyle style
    | none => o
  let o := match a.naming with
    | some style => o.setNamingStyle style
    | none => o
  { o with
    useFactory := a.useFactory.getD o.useFactory
    coverage := a.coverage.getD o.coverage
    upperCaseNames := a.upperCaseNames.getD o.upperCaseNames
    enhancedRegisters := a.enhancedRegisters.getD o.enhancedRegisters
    templateDir := a.templateDir.or o.templateDir }

/-- The options of a settings file, or the standard ones. -/
def baseOptions (config : Option String) : Session m Options :=
  match config with
  | none => return {}
  | some path => do
    let text ← Session.ask (Files.read path)
    Session.located (.inSettings path) (monadLift (Settings.read text))

/-- The options of a run: those of the settings file, under the arguments and definitions. -/
def Arguments.options (a : Arguments) : Session m Options := do
  let o := a.override (← baseOptions a.config)
  let definitions ← Session.ofReport (monadLift (a.definitions.mapM readDefinition))
  return { o with userVariables := o.userVariables.setAll definitions }

/-! ## Designs -/

/-- The format of a file, by its extension in any mix of cases. -/
def Format.ofPath (path : String) : Format :=
  match Path.extension? path with
  | some extension =>
    if extension.toList.map Char.toLower = "svd".toList then .svd else .xml
  | none => .xml

/-- The design that a text describes, and the map that is exported if no other is asked for. -/
def Format.read (f : Format) (text : String) : Report (Model × Option Nat) :=
  match f with
  | .svd => do return (← Svd.read text, some Svd.deviceMap)
  | .xml => do
    let model ← (monadLift (Description.read text) : Report Model)
    return (model, model.top)

/-- The design of the input file, and the map to export. -/
def Request.load (r : Request) : Session m (Model × Nat) := do
  let text ← Session.ask (Files.read r.input)
  let format := r.arguments.format.getD (Format.ofPath r.input)
  let (model, standard) ← Session.located (.inFile r.input) (format.read text)
  match r.arguments.top with
  | some name =>
    match model.findTop name with
    | some top => return (model, top)
    | none => Session.fail (.noSuchTop name)
  | none =>
    match standard with
    | some top => return (model, top)
    | none => Session.fail (.noTop r.input)

/-- Does what a request asks for. -/
def Request.fulfil (r : Request) : Session m Layer := do
  let exporter ← Exporter.load (← r.arguments.options)
  let (model, top) ← r.load
  exporter.export_ model top r.output

/-! ## The log -/

/-- The most detailed level that is logged, if anything is. -/
abbrev LogLimit := Option Level

/-- The limit that the verbosity sets. -/
def limitOfVerbosity : Nat → LogLimit
  | 0 => some .warn
  | 1 => some .info
  | 2 => some .debug
  | _ => some .trace

/-- The limit that a word names, in any mix of cases. -/
def limitOfWord? (word : String) : Option LogLimit :=
  match String.ofList (word.toList.map Char.toLower) with
  | "off" => some none
  | "error" => some (some .error)
  | "warn" => some (some .warn)
  | "info" => some (some .info)
  | "debug" => some (some .debug)
  | "trace" => some (some .trace)
  | _ => none

/-- The limit of a run: the one from its environment, or else that of its verbosity. -/
def logLimit (environment : Option String) (verbosity : Nat) : LogLimit :=
  (environment.bind limitOfWord?).getD (limitOfVerbosity verbosity)

/-- The lines of a log that are shown. -/
def shown (limit : LogLimit) (lines : List (Level × String)) : List (Level × String) :=
  match limit with
  | none => []
  | some l => lines.filter fun line => line.1.shownAt l

/-! ## Outcomes -/

/-- How a run ends, and what it prints and logs. -/
structure Outcome where
  code : Nat
  printed : String := ""
  log : List (Level × String) := []

/-- The name and the version of the program. -/
def versionText : String := "uvm-ral-gen 0.1.0\n"

def helpText : String :=
  "Generate a UVM register model from a register description\n\n" ++
  "Usage: uvm-ral-gen [OPTIONS] --output <OUTPUT> <INPUT>\n\n" ++
  "Arguments:\n" ++
  "  <INPUT>  Register description to export (.xml model or .svd device)\n\n" ++
  "Options:\n" ++
  "  -o, --output <OUTPUT>              File to write the register model to\n" ++
  "      --input-format <FORMAT>        Input format: xml or svd\n" ++
  "      --top <TOP>                    Top-level address map to export\n" ++
  "      --config <CONFIG>              File with export options\n" ++
  "      --file-type <TYPE>             Wrapping of the output: package or header\n" ++
  "      --type-style <STYLE>           Naming of classes: lexical or hier\n" ++
  "      --use-factory[=<BOOL>]         Create instances through the factory\n" ++
  "      --coverage[=<BOOL>]            Emit coverage sampling\n" ++
  "      --uppercase-inst-names[=<BOOL>]  Upper-case all instance names\n" ++
  "      --uvm-reg-enhanced[=<BOOL>]    Derive registers from uvm_reg_enhanced\n" ++
  "      --template-dir <DIR>           Directory searched first for templates\n" ++
  "  -D <NAME=VALUE>                    Template variable\n" ++
  "  -v, --verbose...                   Increase log verbosity\n" ++
  "  -h, --help                         Print help\n" ++
  "  -V, --version                      Print version\n"

/-- How a run ends that did not come to its work. -/
def Verdict.outcome : Verdict → Outcome
  | .usageError => { code := 2 }
  | .help => { code := 0, printed := helpText }
  | .version => { code := 0, printed := versionText }

/-- How a run ends whose work is reported: a fault is the last line of its log. -/
def outcome (limit : LogLimit) (r : Report Layer) : Outcome :=
  let lines := r.notices.map fun n => (n.level, n.message)
  match r.outcome with
  | .ok _ => { code := 0, log := shown limit lines }
  | .error (.fault f) => { code := 1, log := shown limit (lines ++ [(.error, f.message)]) }
  | .error (.abort _) => { code := 101, log := shown limit lines }

/-- One run of the program with these words, and a limit for its log in its environment. -/
def run (words : List String) (environment : Option String) : m Outcome := do
  match Request.ofWords words with
  | .error verdict => return verdict.outcome
  | .ok request =>
    return outcome (logLimit environment request.arguments.verbosity)
      (← Session.report request.fulfil)

end RegLayer.CommandLine
