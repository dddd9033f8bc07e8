/-
# `RegLayer.Options.Settings` — options from a settings file

Settings are written in TOML 1.0, and are read as the `toml` library (0.7) is documented to read
them into a record.  Every option is a switch, a text or the table of variables, so a settings
text that holds any other value, an option twice, or a name that is no option is refused as a
whole, and all refusals are one fault.

Reading therefore knows the parts of TOML that can be accepted, and refuses the rest unseen:

* keys, bare, quoted or dotted, with white space around the dots;
* the four kinds of strings, with their escapes and the folding of long ones;
* booleans, inline tables of strings, the header of the one table, comments, both line ends;
* dates and times, which pass for a table with one entry and so for a table of variables.

Numbers, arrays and arrays of tables are values of TOML that no option has.  What is read is a
list of statements; what they mean is a second pass (`Reading.step?`), in which a table that was
given as a whole cannot be continued and one that was given by dotted keys can.
-/
import RegLayer.Options.Basic
import RegLayer.Options.Moment

namespace RegLayer.Settings

open Text Text.Reader

/-! ## Characters -/

/-- Space and tab, the only white space within a line. -/
def isSpace (c : Char) : Bool :=
  c == ' ' || c == '\t'

/-- A character that may stand in a comment or a string: no control character but the tab. -/
def isPlain (c : Char) : Bool :=
  c == '\t' || (0x20 ≤ c.toNat && c.toNat != 0x7F)

def isBareKeyChar (c : Char) : Bool :=
  c.isAlphanum || c == '_' || c == '-'

def apostrophe : Char := Char.ofNat 39

def spaces : Reader Unit := do
  let _ ← takeWhile isSpace

/-- Takes a line feed, or a carriage return with a line feed. -/
def newline? : Reader Bool := do
  if ← word? "\n" then return true
  word? "\r\n"

/-- Takes white space, a comment if there is one, and the end of the line or of the text. -/
def endOfLine : Reader Unit := do
  spaces
  if ← word? "#" then
    let _ ← takeWhile isPlain
  if ← newline? then return ()
  if ← atEnd then return ()
  refuse

/-! ## Strings -/

/-- The character with this code in so many hexadecimal digits. -/
def coded (digits : Nat) : Reader Char := do
  let n ← fixedDigits 16 digits
  if n.isValidChar then return Char.ofNat n else refuse

/-- The character that stands for itself after a backslash. -/
def escaped : Reader Char := do
  match ← next with
  | 'b' => return '\x08'
  | 't' => return '\t'
  | 'n' => return '\n'
  | 'f' => return '\x0c'
  | 'r' => return '\r'
  | '"' => return '"'
  | '\\' => return '\\'
  | 'u' => coded 4
  | 'U' => coded 8
  | _ => refuse

/-- The rest of a string on one line, after its opening quote. -/
def shortString (quote : Char) (escapes : Bool) : Reader (List Char) :=
  repeated do
    let c ← next
    if c = quote then return none
    if escapes && c == '\\' then return some (← escaped)
    if isPlain c then return some c
    refuse

/-- White space and line ends after a backslash at the end of a line. -/
def foldedLines : Reader (List (List Char)) :=
  repeated do
    if ← newline? then return some []
    match ← takeWhile isSpace with
    | [] => return none
    | _ :: _ => return some []

/-- The next part of a string over several lines: some characters, or nothing at the end.  Up to
two quotes may stand before the three that end the string. -/
def longPart (quote : Char) (escapes : Bool) : Reader (Option (List Char)) := do
  if ← newline? then return some ['\n']
  match ← takeWhile (· == quote) with
  | [] =>
    let c ← next
    if escapes && c == '\\' then
      let blank ← takeWhile isSpace
      if ← newline? then
        let _ ← foldedLines
        return some []
      if blank.isEmpty then return some [← escaped]
      refuse
    if isPlain c then return some [c]
    refuse
  | quotes =>
    if quotes.length < 3 then return some quotes
    if quotes.length = 3 then return none
    if quotes.length > 5 then refuse
    set (quotes.take 3 ++ (← rest))
    return some (quotes.drop 3)

/-- The rest of a string over several lines, after its three opening quotes.  A line end just
after them does not count. -/
def longString (quote : Char) (escapes : Bool) : Reader (List Char) := do
  let _ ← newline?
  return (← repeated (longPart quote escapes)).flatten

/-- A string with this quote; strings over several lines only where they are allowed. -/
def quoted (quote : Char) (escapes long : Bool) : Reader String := do
  let three := String.ofList [quote, quote, quote]
  if long then
    if ← word? three then return String.ofList (← longString quote escapes)
  char quote
  return String.ofList (← shortString quote escapes)

/-- A string of any kind. -/
def string? (long : Bool) : Reader (Option String) := do
  match (← rest).head? with
  | none => return none
  | some c =>
    if c = '"' then return some (← quoted '"' true long)
    if c = apostrophe then return some (← quoted apostrophe false long)
    return none

/-! ## Keys and values -/

/-- A key without dots. -/
def simpleKey : Reader String := do
  match ← string? false with
  | some key => return key
  | none =>
    match ← takeWhile isBareKeyChar with
    | [] => refuse
    | cs => return String.ofList cs

/-- A key with dots between its parts. -/
def key : Reader (List String) := do
  spaces
  let first ← simpleKey
  let others ← repeated do
    spaces
    if ← word? "." then
      spaces
      return some (← simpleKey)
    return none
  return first :: others

/-- The values that an option can have. -/
inductive Value where
  | switch (b : Bool)
  | text (s : String)
  | table (entries : List (String × String))
  | moment (m : Moment)

/-- The name under which a moment is the only entry of a table. -/
def momentName : String := "$__toml_private_datetime"

/-- The entries of a value that passes for a table. -/
def Value.entries? : Value → Option (List (String × String))
  | .table entries => some entries
  | .moment m => some [(momentName, m.text)]
  | _ => none

/-- One entry of an inline table. -/
def inlineEntry : Reader (String × String) := do
  match ← key with
  | [k] =>
    char '='
    spaces
    match ← string? true with
    | some v =>
      spaces
      return (k, v)
    | none => refuse
  | _ => refuse

/-- The rest of an inline table, after its opening brace. -/
def inlineTable : Reader (List (String × String)) := do
  spaces
  if ← word? "\x7d" then return []
  let first ← inlineEntry
  let others ← repeated do
    if ← word? "\x7d" then return none
    char ','
    return some (← inlineEntry)
  return first :: others

def value : Reader Value := do
  match ← string? true with
  | some s => return .text s
  | none =>
    if ← word? "true" then return .switch true
    if ← word? "false" then return .switch false
    if ← word? "\x7b" then return .table (← inlineTable)
    return .moment (← Moment.read)

/-- A line of a settings text that says something. -/
inductive Statement where
  /-- The lines that follow belong to this table. -/
  | header (key : List String)
  | setting (key : List String) (v : Value)

/-- A line that says something. -/
def statement : Reader Statement := do
  if ← word? "[" then
    let k ← key
    spaces
    char ']'
    endOfLine
    return .header k
  else
    let k ← key
    char '='
    spaces
    let v ← value
    endOfLine
    return .setting k v

/-- All lines that say something. -/
def statements : Reader (List Statement) := do
  let _ ← word? "\ufeff"
  let lines ← repeated do
    spaces
    if ← atEnd then return none
    match (← rest).head? with
    | some '#' | some '\n' | some '\r' =>
      endOfLine
      return some none
    | _ => return some (some (← statement))
  return lines.filterMap id

/-! ## Meaning -/

/-- How the table of variables has been given so far. -/
inductive TableState where
  | absent
  /-- By keys with a dot, which can be continued. -/
  | dotted
  /-- As a whole. -/
  | complete
  deriving DecidableEq

/-- The options read so far. -/
structure Reading where
  options : Options
  /-- The options given so far; none may be given twice. -/
  given : List String
  table : TableState
  /-- Whether the lines belong to the table of variables. -/
  inTable : Bool

namespace Reading

/-- Adds a variable, which must be new. -/
def define? (r : Reading) (name value : String) : Option Reading :=
  let vars := r.options.userVariables
  if (vars.get? name).isSome then none
  else some { r with options := { r.options with userVariables := vars.set name value } }

/-- Gives an option a value of its kind. -/
def option? (r : Reading) (name : String) (v : Value) : Option Reading :=
  if r.given.contains name then none
  else
    let r := { r with given := name :: r.given }
    match Options.switchSetter? name, v with
    | some setter, .switch b => some { r with options := setter r.options b }
    | some _, _ => none
    | none, v =>
      if name = Options.templateDirName then
        match v with
        | .text s => some { r with options := { r.options with templateDir := some s } }
        | _ => none
      else if name = Options.variablesName && r.table == .absent then do
        (← v.entries?).foldlM (fun r e => r.define? e.1 e.2) { r with table := .complete }
      else none

/-- The reading after one more statement. -/
def step? (r : Reading) : Statement → Option Reading
  | .header [name] =>
    if name = Options.variablesName && r.table == .absent then
      some { r with table := .complete, inTable := true }
    else none
  | .setting [name] v =>
    if r.inTable then
      match v with
      | .text s => r.define? name s
      | _ => none
    else r.option? name v
  | .setting [table, name] (.text s) =>
    if !r.inTable && table == Options.variablesName && r.table != .complete then
      ({ r with table := .dotted } : Reading).define? name s
    else none
  | _ => none

end Reading

/-- The options that a settings text gives; what it does not mention keeps its default. -/
def read? (text : String) : Option Options := do
  let lines ← statements.run? text.toList
  let r ← lines.foldlM Reading.step? ⟨{}, [], .absent, false⟩
  return r.options

/-- Reads a settings text. -/
def read (text : String) : Except Failure Options :=
  match read? text with
  | some o => .ok o
  | none => .error (.fault .malformedSettings)

end RegLayer.Settings
