/-
# `RegLayer.Banner` — the comment on top of the generated code

A banner is a template: between double braces it names variables, and each is replaced by its
value in one pass from the left.  Values are not looked into again.  A name that has no value is a
fault, and of several the first one counts.

A placeholder is what the pattern

    \{\{\s*([A-Za-z_][A-Za-z0-9_]*)\s*\}\}

matches, with the white space of Unicode and the names of ASCII (`placeholder?`).  The rules of
the `regex` library (1.3) for replacing all matches are followed as they are documented: matches
are found from left to right and do not overlap, each at the first place where one begins, and
what stands between them is kept.  Braces that make no placeholder are plain text.

`expand` is that pass as a recursion on the characters.  It takes a whole placeholder at once, so
it is not a structural recursion; that what is left becomes shorter is `length_of_placeholder?`.
That the pass loses no placeholder to an earlier one is not part of the definition
(`RegLayer.Proofs.Placeholders`).
-/
import RegLayer.Fault
import RegLayer.Text.Blank
import RegLayer.Variables

namespace RegLayer.Banner

/-! ## Placeholders -/

def isNameStart (c : Char) : Bool :=
  c.isAlpha || c == '_'

def isNameChar (c : Char) : Bool :=
  c.isAlphanum || c == '_'

/-- The closing braces of a placeholder, after white space; what is left after them. -/
def closing? (cs : List Char) : Option (List Char) :=
  match cs.dropWhile Text.isBlank with
  | '\x7d' :: '\x7d' :: rest => some rest
  | _ => none

/-- The name of a placeholder after its opening braces, and what is left after it. -/
def nameAndClosing? (cs : List Char) : Option (List Char × List Char) :=
  match cs.dropWhile Text.isBlank with
  | c :: rest =>
    if isNameStart c then
      (closing? (rest.dropWhile isNameChar)).map (c :: rest.takeWhile isNameChar, ·)
    else none
  | [] => none

/-- The name of the placeholder at the front, and what is left after it. -/
def placeholder? : List Char → Option (List Char × List Char)
  | '\x7b' :: '\x7b' :: rest => nameAndClosing? rest
  | _ => none

theorem length_of_closing? {cs rest : List Char} (h : closing? cs = some rest) :
    rest.length < cs.length := by
  have hd := (List.dropWhile_suffix (l := cs) Text.isBlank).length_le
  unfold closing? at h
  split at h
  · next heq =>
    cases h
    rw [heq] at hd
    simp at hd
    omega
  · simp at h

theorem length_of_nameAndClosing? {cs name rest : List Char}
    (h : nameAndClosing? cs = some (name, rest)) : rest.length < cs.length := by
  have hd := (List.dropWhile_suffix (l := cs) Text.isBlank).length_le
  unfold nameAndClosing? at h
  split at h
  · next c tail heq =>
    split at h
    · obtain ⟨r, hr, hp⟩ := Option.map_eq_some_iff.1 h
      cases hp
      have h₁ := length_of_closing? hr
      have h₂ := (List.dropWhile_suffix (l := tail) isNameChar).length_le
      rw [heq] at hd
      simp at hd
      omega
    · simp at h
  · simp at h

/-- What is left after a placeholder is shorter than what was there. -/
theorem length_of_placeholder? {cs name rest : List Char}
    (h : placeholder? cs = some (name, rest)) : rest.length < cs.length := by
  unfold placeholder? at h
  split at h
  · have := length_of_nameAndClosing? h
    simp
    omega
  · simp at h

/-! ## Filling in -/

/-- The characters with every placeholder replaced by the value of its variable. -/
def expand (vars : Variables) (cs : List Char) : Except Failure (List Char) :=
  match _hp : placeholder? cs with
  | some (name, rest) =>
    match vars.get? (String.ofList name) with
    | some value => (value.toList ++ ·) <$> expand vars rest
    | none => .error (.fault (.undefinedVariable (String.ofList name)))
  | none =>
    match cs with
    | [] => .ok []
    | c :: cs => (c :: ·) <$> expand vars cs
termination_by cs.length
decreasing_by
  · exact length_of_placeholder? _hp
  · simp

/-- A template with every placeholder replaced by the value of its variable. -/
def fill (template : String) (vars : Variables) : Except Failure String :=
  String.ofList <$> expand vars template.toList

/-! ## The template -/

/-- The banner that is used where there is no other. -/
def standard : String :=
  "// This file was autogenerated by \x7b\x7b generator \x7d\x7d \x7b\x7b version \x7d\x7d\n" ++
  "// Register model of '\x7b\x7b top_name \x7d\x7d', " ++
  "written to \x7b\x7b output_name \x7d\x7d\n"

/-- The variables of a banner: the user's, and over them those that every banner has. -/
def allVariables (user : Variables) (topName outputName : String) : Variables :=
  user.setAll [("generator", "uvm-ral-exporter"), ("version", "0.1.0"),
    ("top_name", topName), ("output_name", outputName)]

end RegLayer.Banner
