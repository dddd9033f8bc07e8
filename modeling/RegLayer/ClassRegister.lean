/-
# `RegLayer.ClassRegister` — who has which class name

While classes are written, every class name belongs to the declaration that asked for it first.
The same declaration may use it again without a second body; nobody else may have it, and a
component of unknown declaration shares with no one, not even with another one like it.

    free                                        the class has to be written, the name is taken
    taken by this declaration, which is known   the class is there already
    taken otherwise                             refused

A query answers and leaves a register (`query`, with one lemma for each of the three cases).  The
register is part of what it returns even where it refuses, so that "a refusal changes nothing" is
a statement about the query itself.  Whoever stops at a refusal loses the register and asks by
`claim`.
-/
import RegLayer.Node

namespace RegLayer

/-- The class names taken so far, each with the declaration that took it. -/
structure ClassRegister where
  claims : List (String × Option DeclId)

namespace ClassRegister

def empty : ClassRegister := ⟨[]⟩

/-- The number of class names taken. -/
def size (r : ClassRegister) : Nat :=
  r.claims.length

/-- The first claim of a name. -/
def holder? (r : ClassRegister) (name : String) : Option (Option DeclId) :=
  r.claims.lookup name

/-- Asks for a name.  The answer says whether its class still has to be written; beside it stands
the register as the query leaves it, whatever the answer. -/
def query (r : ClassRegister) (name : String) (decl : Option DeclId) :
    Except Failure Bool × ClassRegister :=
  match r.holder? name with
  | some first =>
    if first.isSome && first == decl then (.ok false, r)
    else (.error (.fault (.classNameTaken name)), r)
  | none => (.ok true, ⟨(name, decl) :: r.claims⟩)

/-- A query of somebody who stops when it is refused. -/
def claim (r : ClassRegister) (name : String) (decl : Option DeclId) :
    Except Failure (Bool × ClassRegister) :=
  orStop (r.query name decl)

@[simp] theorem size_empty : empty.size = 0 := rfl

section Query

variable {r : ClassRegister} {name : String} {decl : Option DeclId}

theorem query_of_free (decl : Option DeclId) (h : r.holder? name = none) :
    r.query name decl = (.ok true, ⟨(name, decl) :: r.claims⟩) := by
  unfold query
  rw [h]

theorem query_of_shared {first : Option DeclId} (h : r.holder? name = some first)
    (hsame : (first.isSome && first == decl) = true) : r.query name decl = (.ok false, r) := by
  unfold query
  simp [h, hsame]

theorem query_of_taken {first : Option DeclId} (h : r.holder? name = some first)
    (hother : (first.isSome && first == decl) = false) :
    r.query name decl = (.error (.fault (.classNameTaken name)), r) := by
  unfold query
  simp [h, hother]

end Query

end ClassRegister

end RegLayer
