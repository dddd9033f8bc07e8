/-
# `RegLayer.CommandLine.Arguments` — what a command line asks for

The words of a command line are judged from left to right.  The first one that is wrong, or that
asks for help or for the version, decides; what follows is not looked at.  The rules are the
documented ones of the argument parser `clap` (4.0) for a program without subcommands:

* a value follows its option as the next word, or in the same word after an equals sign; a short
  option takes the rest of its word as a value, with or without the sign;
* a word with a hyphen in front, other than a lone hyphen, is never taken for the value of an
  option that waits for one;
* a switch is on where it is named, and takes a value only in the same word (`judgeLong`);
* short options without a value may share a word; after two bare hyphens all words are inputs;
* an option that is given twice is a mistake, except a definition and the verbosity;
* paths are not empty, and the values of `--input-format`, `--file-type`, `--type-style` and of
  switches are those listed and no others.

`Request.ofWords` folds one judgement over the words and asks in the end for an input and an
output.  Left out are the texts of usage errors, abbreviations and suggestions.
-/
import RegLayer.Options.Basic

namespace RegLayer.CommandLine

/-! ## Arguments -/

/-- What a description is written in. -/
inductive Format where
  | xml
  | svd
  deriving DecidableEq, Repr

/-- Options that take a value. -/
inductive ValueOption where
  | output
  | format
  | top
  | config
  | container
  | naming
  | templateDir
  | definition
  deriving DecidableEq, Repr

/-- Options that are on or off. -/
inductive Switch where
  | useFactory
  | coverage
  | upperCaseNames
  | enhancedRegisters
  deriving DecidableEq, Repr

/-- What a word with hyphens in front names. -/
inductive Flag where
  | value (o : ValueOption)
  | switch (s : Switch)
  | verbose
  | help
  | version
  deriving DecidableEq, Repr

def longFlag? : String → Option Flag
  | "output" => some (.value .output)
  | "input-format" => some (.value .format)
  | "top" => some (.value .top)
  | "config" => some (.value .config)
  | "file-type" => some (.value .container)
  | "type-style" => some (.value .naming)
  | "template-dir" => some (.value .templateDir)
  | "use-factory" => some (.switch .useFactory)
  | "coverage" => some (.switch .coverage)
  | "uppercase-inst-names" => some (.switch .upperCaseNames)
  | "uvm-reg-enhanced" => some (.switch .enhancedRegisters)
  | "verbose" => some .verbose
  | "help" => some .help
  | "version" => some .version
  | _ => none

def shortFlag? : Char → Option Flag
  | 'o' => some (.value .output)
  | 'D' => some (.value .definition)
  | 'v' => some .verbose
  | 'h' => some .help
  | 'V' => some .version
  | _ => none

/-- What has been asked for so far. -/
structure Arguments where
  input : Option String := none
  output : Option String := none
  format : Option Format := none
  top : Option String := none
  config : Option String := none
  container : Option ContainerStyle := none
  naming : Option NamingStyle := none
  useFactory : Option Bool := none
  coverage : Option Bool := none
  upperCaseNames : Option Bool := none
  enhancedRegisters : Option Bool := none
  templateDir : Option String := none
  definitions : List String := []
  verbosity : Nat := 0
  deriving DecidableEq, Repr

/-- Why the words after one do not matter. -/
inductive Verdict where
  | usageError
  | help
  | version
  deriving DecidableEq, Repr

/-- Judging words can come to an early end. -/
abbrev Judging (α : Type) := Except Verdict α

/-! ## Values -/

/-- A path, which cannot be empty. -/
def path? (word : String) : Option String :=
  if word = "" then none else some word

def format? : String → Option Format
  | "xml" => some .xml
  | "svd" => some .svd
  | _ => none

def container? : String → Option ContainerStyle
  | "package" => some .package
  | "header" => some .header
  | _ => none

def naming? : String → Option NamingStyle
  | "lexical" => some .lexical
  | "hier" => some .hierarchical
  | _ => none

def switch? : String → Option Bool
  | "true" => some true
  | "false" => some false
  | _ => none

/-- The value of an option that has none yet. -/
def once {α : Type} (old new : Option α) : Judging (Option α) :=
  if old.isSome || new.isNone then .error .usageError else .ok new

namespace Arguments

/-- The arguments with a value for an option. -/
def assign (a : Arguments) (o : ValueOption) (word : String) : Judging Arguments :=
  match o with
  | .output => do return { a with output := ← once a.output (path? word) }
  | .format => do return { a with format := ← once a.format (format? word) }
  | .top => do return { a with top := ← once a.top (some word) }
  | .config => do return { a with config := ← once a.config (path? word) }
  | .container => do return { a with container := ← once a.container (container? word) }
  | .naming => do return { a with naming := ← once a.naming (naming? word) }
  | .templateDir => do return { a with templateDir := ← once a.templateDir (path? word) }
  | .definition => return { a with definitions := a.definitions ++ [word] }

/-- The arguments with a switch turned on or off. -/
def turn (a : Arguments) (s : Switch) (b : Option Bool) : Judging Arguments :=
  match s with
  | .useFactory => do return { a with useFactory := ← once a.useFactory b }
  | .coverage => do return { a with coverage := ← once a.coverage b }
  | .upperCaseNames => do return { a with upperCaseNames := ← once a.upperCaseNames b }
  | .enhancedRegisters => do return { a with enhancedRegisters := ← once a.enhancedRegisters b }

/-- The arguments with a word that belongs to no option: the input. -/
def place (a : Arguments) (word : String) : Judging Arguments := do
  return { a with input := ← once a.input (path? word) }

def moreVerbose (a : Arguments) : Arguments :=
  { a with verbosity := a.verbosity + 1 }

end Arguments

/-! ## Words -/

/-- The arguments so far, the option that waits for its value, and whether options have ended. -/
structure Progress where
  arguments : Arguments
  waiting : Option ValueOption := none
  ended : Bool := false

/-- A word that cannot be the value of an option. -/
def looksLikeFlag (word : String) : Bool :=
  match word.toList with
  | '-' :: _ :: _ => true
  | _ => false

/-- A name and what follows the first equals sign, if there is one. -/
def nameAndValue (cs : List Char) : String × Option String :=
  let name := cs.takeWhile (· != '=')
  (String.ofList name,
    if name.length = cs.length then none else some (String.ofList (cs.drop (name.length + 1))))

/-- Judges a word with two hyphens, given without them. -/
def judgeLong (a : Arguments) (cs : List Char) : Judging Progress :=
  let (name, value) := nameAndValue cs
  match longFlag? name, value with
  | some (.value o), none => .ok { arguments := a, waiting := some o }
  | some (.value o), some v => do return { arguments := ← a.assign o v }
  | some (.switch s), none => do return { arguments := ← a.turn s (some true) }
  | some (.switch s), some v => do return { arguments := ← a.turn s (switch? v) }
  | some .verbose, none => .ok { arguments := a.moreVerbose }
  | some .help, none => .error .help
  | some .version, none => .error .version
  | _, _ => .error .usageError

/-- A value that follows its option in one word, perhaps after an equals sign. -/
def attached : List Char → String
  | '=' :: cs => String.ofList cs
  | cs => String.ofList cs

/-- Judges a word with one hyphen, given without it: letters for options, and perhaps the value of
the last one. -/
def judgeShort (a : Arguments) : List Char → Judging Progress
  | [] => .ok { arguments := a }
  | c :: cs =>
    match shortFlag? c with
    | some (.value o) =>
      if cs.isEmpty then .ok { arguments := a, waiting := some o }
      else do return { arguments := ← a.assign o (attached cs) }
    | some (.switch s) => do judgeShort (← a.turn s (some true)) cs
    | some .verbose => judgeShort a.moreVerbose cs
    | some .help => .error .help
    | some .version => .error .version
    | none => .error .usageError

/-- Judges a word that is not the value of an option. -/
def judgeFree (a : Arguments) (word : String) : Judging Progress :=
  match word.toList with
  | ['-', '-'] => .ok { arguments := a, ended := true }
  | '-' :: '-' :: cs => judgeLong a cs
  | '-' :: c :: cs => judgeShort a (c :: cs)
  | _ => do return { arguments := ← a.place word }

/-- Judges one word after others. -/
def judge (p : Progress) (word : String) : Judging Progress :=
  match p.waiting with
  | some o =>
    if looksLikeFlag word then .error .usageError
    else do return { arguments := ← p.arguments.assign o word }
  | none =>
    if p.ended then do return { p with arguments := ← p.arguments.place word }
    else judgeFree p.arguments word

/-! ## Requests -/

/-- A complete request: arguments with an input and an output. -/
structure Request where
  input : String
  output : String
  arguments : Arguments

/-- The request that has been made when there are no more words. -/
def Progress.request (p : Progress) : Judging Request :=
  match p.waiting, p.arguments.input, p.arguments.output with
  | none, some input, some output => .ok ⟨input, output, p.arguments⟩
  | _, _, _ => .error .usageError

/-- What the words of a command line ask for. -/
def Request.ofWords (words : List String) : Judging Request := do
  (← words.foldlM judge { arguments := {} }).request

end RegLayer.CommandLine
