/-
# `RegLayer.Xml.Element` — documents as trees of elements

An element has a name, attributes, a text and elements inside it.  What a text means as a tree is
read as the `xmltree` library (0.8) is documented to build it:

* qualifiers have to be bound to a name space by an attribute on the way down, `xml` and `xmlns`
  always are, and after that only the local name is kept; the bindings themselves are no
  attributes of the element;
* an element closes under the name that it was opened with, qualifier included;
* comments are left out; text and literal sections between two tags are separate texts, and the
  last one that is more than white space is the text of the element;
* no attribute of an element is written twice, but with different qualifiers a local name may come
  twice, and then the last one counts;
* what follows the root element is not looked at.

`Element.ofText?` gives the root, or nothing: where a text is not well-formed nothing is said
about the mistake.  No result about designs depends on these rules.  The results are stated for
every element, and a text comes in only where a concrete one is read.
-/
import RegLayer.Tree
import RegLayer.Xml.Markup

namespace RegLayer.Xml

open Text Text.Reader

/-- What an element is apart from the elements inside it. -/
structure Tag where
  name : String
  /-- The attributes, the last one first. -/
  attributes : List (String × String)
  text : Option String
  deriving DecidableEq, Repr

/-- The value of an attribute; of several with one name the last one counts. -/
def Tag.attribute? (t : Tag) (key : String) : Option String :=
  t.attributes.lookup key

/-- An element with the elements inside it. -/
abbrev Element := Tree Tag

/-- The first element of this name inside an element. -/
def Element.child? (e : Element) (name : String) : Option Element :=
  e.children.find? fun c => c.label.name == name

/-! ## Name spaces -/

/-- The name space that is always bound to the qualifier `xml`. -/
def ownSpace : String := "http://www.w3.org/XML/1998/namespace"

/-- Whether an attribute that binds a qualifier or the default name space may do so. -/
def mayBind (key : Name) (v : String) : Bool :=
  match key.qualifier with
  | some _ => key.local_ != "xmlns" && v != "" && (key.local_ != "xml" || v == ownSpace)
  | none => v != "xmlns" && v != "xml"

/-- Whether an attribute binds a name space. -/
def isBinding (key : Name) : Bool :=
  key.qualifier == some "xmlns" || key == ⟨none, "xmlns"⟩

/-- The qualifiers that an attribute binds. -/
def boundBy? (key : Name) : Option String :=
  if key.qualifier == some "xmlns" then some key.local_ else none

def isBound (bound : List String) (n : Name) : Bool :=
  n.qualifier.all fun q => bound.contains q

/-- Whether no name occurs twice. -/
def distinct : List Name → Bool
  | [] => true
  | n :: ns => !ns.contains n && distinct ns

/-- The attributes of a tag that say something about the element, and the qualifiers bound inside
it; nothing if its names break a rule. -/
def resolve? (bound : List String) (n : Name) (attributes : List (Name × String)) :
    Option (List (String × String) × List String) :=
  let (bindings, others) := attributes.partition fun a => isBinding a.1
  let inner := bindings.filterMap (fun a => boundBy? a.1) ++ bound
  let names := others.map (·.1)
  if n.qualifier != some "xml" && n.qualifier != some "xmlns" &&
      bindings.all (fun a => mayBind a.1 a.2) && distinct names && isBound inner n &&
      names.all (isBound inner) then
    some ((others.map fun a => (a.1.local_, a.2)).reverse, inner)
  else none

/-! ## Content -/

/-- What has been read inside an element. -/
structure Content where
  /-- The elements, the last one first. -/
  children : List Element := []
  text : Option String := none
  /-- Text since the last tag or literal section. -/
  run : List Char := []
  /-- Whether the text is more than white space, or follows a literal section that is. -/
  counts : Bool := false

namespace Content

/-- Ends the text under way. -/
def settle (c : Content) : Content :=
  { c with
    text := if c.counts && !c.run.isEmpty then some (String.ofList c.run) else c.text
    run := []
    counts := false }

def addText (c : Content) (cs : List Char) : Content :=
  { c with run := c.run ++ cs, counts := c.counts || !cs.all isSpace }

def addLiteral (c : Content) (cs : List Char) : Content :=
  { c.settle with text := some (String.ofList cs), counts := !cs.all isSpace }

def addChild (c : Content) (e : Element) : Content :=
  { c.settle with children := e :: c.settle.children }

/-- The element with this content. -/
def close (c : Content) (n : Name) (attributes : List (String × String)) : Element :=
  .node ⟨n.local_, attributes, c.settle.text⟩ c.settle.children.reverse

end Content

/-! ## Elements -/

/-- The content of an element up to its closing tag, in at most `bound` pieces. -/
def contentUpTo (n : Name) (qualifiers : List String) : Nat → Content → Reader Content
  | 0, _ => refuse
  | bound + 1, c => do
    match ← piece with
    | .comment => contentUpTo n qualifiers bound c
    | .text cs => contentUpTo n qualifiers bound (c.addText cs)
    | .literal cs => contentUpTo n qualifiers bound (c.addLiteral cs)
    | .closing m => if m = n then return c else refuse
    | .opening m attributes isEmpty =>
      match resolve? qualifiers m attributes with
      | none => refuse
      | some (attributes, inner) =>
        let inside ← if isEmpty then pure {} else contentUpTo m inner bound {}
        contentUpTo n qualifiers bound (c.addChild (inside.close m attributes))

/-- Takes what stands before the root, and the root; what follows it is not looked at. -/
def document : Reader Element := do
  prolog
  match ← piece with
  | .opening n attributes isEmpty =>
    match resolve? ["xml", "xmlns"] n attributes with
    | none => refuse
    | some (attributes, inner) =>
      let content ← if isEmpty then pure {} else contentUpTo n inner ((← rest).length + 1) {}
      return content.close n attributes
  | _ => refuse

/-- The root element of a document. -/
def Element.ofText? (text : String) : Option Element :=
  (document text.toList).map (·.1)

end RegLayer.Xml
