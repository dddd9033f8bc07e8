/-
# `RegLayer.Text.Reader` — reading from the front of a text

A reader takes what it wants from the front of the characters, or refuses.  Readers are chained in
the state monad over the characters that are left; to try one thing and then another is the choice
of that monad, which goes back to where the first began.

Repetition is bounded by the number of characters left, so that every reader is a structural
recursion (`repeatedWithin`).  The bound is enough: a part that takes nothing is not read twice
with a different result.
-/

namespace RegLayer.Text

/-- Takes something from the front of the characters, or refuses. -/
abbrev Reader (α : Type) := StateT (List Char) Option α

namespace Reader

/-- Refuses. -/
def refuse {α : Type} : Reader α := fun _ => none

/-- The characters that are left. -/
def rest : Reader (List Char) := get

/-- Takes the next character. -/
def next : Reader Char
  | [] => none
  | c :: cs => some (c, cs)

/-- Takes this character. -/
def char (c : Char) : Reader Unit
  | [] => none
  | d :: cs => if d = c then some ((), cs) else none

/-- Takes the characters of `word`, if they come next, and says whether they did. -/
def word? (word : String) : Reader Bool := fun cs =>
  match word.toList.isPrefixOf? cs with
  | some cs => some (true, cs)
  | none => some (false, cs)

/-- Takes the characters of `word`. -/
def word (w : String) : Reader Unit := do
  if ← word? w then pure () else refuse

/-- Takes characters as long as they satisfy the test. -/
def takeWhile (p : Char → Bool) : Reader (List Char) := fun cs =>
  some (cs.span p)

/-- Whether nothing is left. -/
def atEnd : Reader Bool := fun cs =>
  some (cs.isEmpty, cs)

/-- Reads parts until there is none, at most one for each element of the bound.  The bound is a list
so that it need not be counted. -/
def repeatedWithin {α : Type} (part : Reader (Option α)) : List Char → Reader (List α)
  | [] => refuse
  | _ :: bound => do
    match ← part with
    | none => pure []
    | some a => return a :: (← repeatedWithin part bound)

/-- Reads parts until there is none. -/
def repeated {α : Type} (part : Reader (Option α)) : Reader (List α) := fun cs =>
  repeatedWithin part (' ' :: cs) cs

/-- Reads parts, each in view of what the one before has led to, until there is none; at most one
for each element of the bound. -/
def foldedWithin {α : Type} (part : α → Reader (Option α)) : List Char → α → Reader α
  | [], _ => refuse
  | _ :: bound, a => do
    match ← part a with
    | none => pure a
    | some a => foldedWithin part bound a

/-- Reads parts, each in view of what the one before has led to, until there is none. -/
def folded {α : Type} (part : α → Reader (Option α)) (a : α) : Reader α := fun cs =>
  foldedWithin part (' ' :: cs) a cs

/-- What the reader takes from a text, which it has to take whole. -/
def run? {α : Type} (r : Reader α) (cs : List Char) : Option α :=
  match r cs with
  | some (a, []) => some a
  | _ => none

end Reader

end RegLayer.Text
