/-
# `RegLayer.Xml.Markup` — the pieces of a document

A document is a sequence of pieces: tags, text, sections of literal text, and comments.  Names may
carry one qualifier before a colon.  Text and values are taken as they stand, except that
references to characters are replaced.

The notation is XML 1.0 with name spaces, without definitions of a document type: a document type
is passed over, and the only entities are the five that every document has.  Where XML leaves a
reader room, and where readers are known to be lenient, the pull parser `xml-rs` (0.7) is
followed, on which the library for trees of elements is built:

* `]]>`, `/>` and `?>` cannot stand in text, and two hyphens in a comment have to end it or to
  open one once more;
* in a value a `<` is taken only where it begins other markup than a tag, and what stands between
  the equals sign and the opening quote belongs to the value;
* a processing instruction is refused; the declaration gives a version, and then at most an
  encoding, which is not used, and whether the document stands alone;
* before the root, references and semicolons are gathered as text, and are a mistake as soon as
  they would have to become a piece;
* the names in an opening tag fall into runs with room for one qualifier each (`haveRoom`).

Characters are not asked whether XML allows them, and the text is one of characters already; how
it was encoded is not a question here.
-/
import RegLayer.Text.Number
import RegLayer.Text.Reader

namespace RegLayer.Xml

open Text Text.Reader

/-! ## Names -/

/-- The white space of markup. -/
def isSpace (c : Char) : Bool :=
  c == ' ' || c == '\t' || c == '\r' || c == '\n'

/-- The ranges of characters that may start a name, by their codes. -/
def nameStarts : List (Nat × Nat) :=
  [(0x3A, 0x3A), (0x41, 0x5A), (0x5F, 0x5F), (0x61, 0x7A), (0xC0, 0xD6), (0xD8, 0xF6),
    (0xF8, 0x2FF), (0x370, 0x37D), (0x37F, 0x1FFF), (0x200C, 0x200D), (0x2070, 0x218F),
    (0x2C00, 0x2FEF), (0x3001, 0xD7FF), (0xF900, 0xFDCF), (0xFDF0, 0xFFFD), (0x10000, 0xEFFFF)]

/-- The ranges of characters that may stand in a name, but not start it. -/
def nameOthers : List (Nat × Nat) :=
  [(0x2D, 0x2E), (0x30, 0x39), (0xB7, 0xB7), (0x300, 0x3F6), (0x203F, 0x2040)]

def isWithin (ranges : List (Nat × Nat)) (c : Char) : Bool :=
  ranges.any fun (low, high) => low ≤ c.toNat && c.toNat ≤ high

def isNameStart (c : Char) : Bool :=
  isWithin nameStarts c

def isNameChar (c : Char) : Bool :=
  isNameStart c || isWithin nameOthers c

/-- The name of an element or attribute. -/
structure Name where
  qualifier : Option String
  local_ : String
  deriving DecidableEq, Repr

/-- The name that the characters form: one part, or two with a colon between them. -/
def Name.ofChars? (cs : List Char) : Option Name :=
  match (cut ':' cs).map String.ofList with
  | [l] => if l = "" then none else some ⟨none, l⟩
  | [q, l] => if q = "" || l = "" then none else some ⟨some q, l⟩
  | _ => none

/-- Takes a name.  Two hyphens in a row belong to comments and cannot stand in it. -/
def name : Reader Name := do
  let cs ← takeWhile isNameChar
  if (cs.head?.any isNameStart) && !occurs ['-', '-'] cs then
    match Name.ofChars? cs with
    | some n => return n
    | none => refuse
  else refuse

def spaces : Reader Unit := do
  let _ ← takeWhile isSpace

/-! ### The names in a tag

The names in an opening tag, from the one of the element to the one of the last attribute, fall
into runs.  A name that starts with an ASCII character begins a run, and any other name goes on
with the run before it.  A run has room for one qualifier. -/

def Name.isQualified (n : Name) : Bool :=
  n.qualifier.isSome

/-- Whether the name, as the one of an attribute, begins a run. -/
def Name.startsRun (n : Name) : Bool :=
  (n.qualifier.getD n.local_).toList.head?.any (·.toNat < 0x80)

/-- Whether no run of the names has two qualifiers, where `isTaken` says whether the run that has
been going on has one. -/
def haveRoom (isTaken : Bool) : List Name → Bool
  | [] => true
  | n :: ns =>
    let isTaken := isTaken && !n.startsRun
    !(isTaken && n.isQualified) && haveRoom (isTaken || n.isQualified) ns

/-! ## References -/

/-- The character with this code; the code that is written as a bare zero is refused. -/
def coded? (base : Nat) (digits : List Char) : Option Char :=
  if digits.isEmpty || digits == ['0'] then none
  else
    (digitsFrom? base 0 digits).bind fun n => if n.isValidChar then some (Char.ofNat n) else none

/-- The character that a reference stands for. -/
def referent? (ref : List Char) : Option Char :=
  match String.ofList ref with
  | "lt" => some '<'
  | "gt" => some '>'
  | "amp" => some '&'
  | "apos" => some (Char.ofNat 39)
  | "quot" => some '"'
  | _ =>
    match ref with
    | '#' :: 'x' :: digits => coded? 16 digits
    | '#' :: digits => coded? 10 digits
    | _ => none

/-- The rest of a reference, after its ampersand. -/
def reference : Reader Char := do
  let ref ← takeWhile (· != ';')
  char ';'
  match referent? ref with
  | some c => return c
  | none => refuse

/-! ## Values -/

/-- What may follow a `<` in a value. -/
def markedInValue : List String :=
  ["/", "?", "!--", "![CDATA[", "!DOCTYPE"]

/-- The next character of a value. -/
def valueChar : Reader Char := do
  match ← next with
  | '&' => reference
  | '<' =>
    let cs ← rest
    if markedInValue.any fun mark => mark.toList.isPrefixOf cs then return '<' else refuse
  | c => return c

def isQuote (c : Char) : Bool :=
  c == '"' || c == Char.ofNat 39

/-- Takes a quoted value.  What stands before the opening quote belongs to it, without white
space. -/
def value : Reader String := do
  let front ← repeated do
    spaces
    if (← rest).head?.any isQuote then return none
    return some (← valueChar)
  let quote ← next
  let inner ← repeated do
    if (← rest).head? == some quote then return none
    return some (← valueChar)
  char quote
  return String.ofList (front ++ inner)

/-- Takes an attribute: a name and its value. -/
def pair : Reader (Name × String) := do
  let n ← name
  spaces
  char '='
  return (n, ← value)

/-! ## Pieces -/

/-- A part of a document that can stand inside an element. -/
inductive Piece where
  | text (cs : List Char)
  /-- Text in which nothing is replaced. -/
  | literal (cs : List Char)
  | comment
  /-- The tag that opens an element; an empty one closes it, too. -/
  | opening (name : Name) (attributes : List (Name × String)) (isEmpty : Bool)
  | closing (name : Name)

/-- What follows a comment that has been opened.  Two hyphens in a row have to end it, unless they
open a comment once more. -/
def afterComment? : List Char → Option (List Char)
  | '-' :: '-' :: '>' :: cs => some cs
  | '-' :: '-' :: _ => none
  | '<' :: '!' :: '-' :: '-' :: cs => afterComment? cs
  | _ :: cs => afterComment? cs
  | [] => none

/-- What follows a document type that has been opened.  It ends at the first `>` that does not
belong to other markup. -/
def afterDoctype? : List Char → Option (List Char)
  | '>' :: cs => some cs
  | '-' :: '-' :: '>' :: cs => afterDoctype? cs
  | '-' :: '-' :: cs => afterDoctype? cs
  | ']' :: ']' :: '>' :: cs => afterDoctype? cs
  | '/' :: '>' :: cs => afterDoctype? cs
  | '?' :: '>' :: cs => afterDoctype? cs
  | '<' :: '!' :: '-' :: '-' :: cs => afterDoctype? cs
  | '<' :: '?' :: cs => afterDoctype? cs
  | '<' :: '/' :: cs => afterDoctype? cs
  | _ :: cs => afterDoctype? cs
  | [] => none

/-- Goes on with what the function leaves of the characters. -/
def skip (after? : List Char → Option (List Char)) : Reader Unit := fun cs =>
  (after? cs).map ((), ·)

/-- The characters before the end of a literal section, and those after it. -/
def literalEnd? : List Char → Option (List Char × List Char)
  | ']' :: ']' :: '>' :: cs => some ([], cs)
  | c :: cs => (literalEnd? cs).map fun (inner, rest) => (c :: inner, rest)
  | [] => none

/-- The rest of an opening tag, after its `<`. -/
def openingTag : Reader Piece := do
  let n ← name
  let attributes ← repeated do
    spaces
    match (← rest).head? with
    | some '>' | some '/' => return none
    | _ => return some (← pair)
  if !haveRoom n.isQualified (attributes.map (·.1)) then refuse
  if ← word? "/>" then return .opening n attributes true
  char '>'
  return .opening n attributes false

/-- The rest of a closing tag, after its `</`. -/
def closingTag : Reader Piece := do
  let n ← name
  spaces
  char '>'
  return .closing n

/-- Ends of markup that cannot stand in text. -/
def strayEnds : List String :=
  ["]]>", "/>", "?>"]

/-- Takes text up to the next tag or reference. -/
def plainText : Reader (List Char) := do
  let cs ← takeWhile fun c => c != '<' && c != '&'
  if cs.isEmpty || strayEnds.any fun mark => occurs mark.toList cs then refuse
  return cs

/-- Takes the next piece. -/
def piece : Reader Piece := do
  if ← word? "</" then closingTag
  else if ← word? "<!--" then
    skip afterComment?
    return .comment
  else if ← word? "<![CDATA[" then return .literal (← literalEnd?)
  else if ← word? "<" then openingTag
  else if ← word? "&" then return .text [← reference]
  else return .text (← plainText)

/-! ## Before the root -/

/-- The characters before the root that wait for the next markup.  Only references and semicolons
can stand there; plain white space is passed over. -/
inductive Waiting where
  /-- None, or only white space. -/
  | blank
  | text
  deriving DecidableEq, Repr

namespace Waiting

/-- What waits after one more character. -/
def add (w : Waiting) (c : Char) : Waiting :=
  if isSpace c then w else .text

/-- Lets markup come that makes a piece of its own out of what waits; text cannot be one before
the root. -/
def settle : Waiting → Reader Waiting
  | .blank => return .blank
  | .text => refuse

end Waiting

/-- Takes what may stand before the root in any number, if there is something: white space, a
character that waits, a comment or a document type. -/
def aside? (w : Waiting) : Reader (Option Waiting) := do
  match ← takeWhile isSpace with
  | _ :: _ => return some w
  | [] =>
    if ← word? "&" then return some (w.add (← reference))
    if ← word? ";" then return some .text
    if ← word? "<!--" then
      skip afterComment?
      return some w
    if ← word? "<!DOCTYPE" then
      let w ← w.settle
      skip afterDoctype?
      return some w
    return none

/-- Takes an attribute of the declaration, which has to have one of the values.  Behind its first
letter the name may have a qualifier, which does not matter. -/
def declared (initial : Char) (others : String) (isValue : String → Bool) : Reader Unit := do
  char initial
  let (n, v) ← pair
  if n.local_ = others && isValue v then pure () else refuse

/-- Takes the rest of the declaration of the document, after `<?xml`: the version, and then an
encoding and whether the document stands alone, or only one of them or none. -/
def declaration : Reader Unit := do
  match ← takeWhile isSpace with
  | [] => refuse
  | _ :: _ =>
    declared 'v' "ersion" fun v => v == "1.0" || v == "1.1"
    spaces
    if (← rest).head? == some 'e' then
      declared 'e' "ncoding" fun _ => true
      spaces
    if (← rest).head? == some 's' then
      declared 's' "tandalone" fun v => v == "yes" || v == "no"
      spaces
    word "?>"

/-- Takes asides in any number, and says what waits after them. -/
def asides (w : Waiting) : Reader Waiting :=
  folded aside? w

/-- Takes what stands before the root element.  Text that waits when the root begins matters only
after a declaration. -/
def prolog : Reader Unit := do
  let w ← asides .blank
  if ← word? "<?xml" then
    let w ← w.settle
    declaration
    let w ← asides w
    let _ ← w.settle

end RegLayer.Xml
