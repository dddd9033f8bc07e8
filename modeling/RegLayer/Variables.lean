/-
# `RegLayer.Variables` — named texts

Templates are filled in from variables.  A name has one value, and setting it again replaces the
value.  The names are kept in the order in which they were first set, although nothing depends on
the order: a look-up after setting is settled by the name alone (`get?_set`), and of several
values for a name the last one counts (`get?_setAll`).
-/

namespace RegLayer

/-- Names with one value each, in the order in which the names were first set. -/
structure Variables where
  entries : List (String × String)
  deriving DecidableEq, Repr

namespace Variables

def empty : Variables := ⟨[]⟩

/-- The value of a name. -/
def get? (vs : Variables) (name : String) : Option String :=
  vs.entries.lookup name

/-- The entries with `name` set to `value`, in its old place if it had one. -/
def put (name value : String) : List (String × String) → List (String × String)
  | [] => [(name, value)]
  | (n, v) :: rest => if n = name then (n, value) :: rest else (n, v) :: put name value rest

/-- Gives a name a value. -/
def set (vs : Variables) (name value : String) : Variables :=
  ⟨put name value vs.entries⟩

/-- The variables with the names of a list set, one after the other. -/
def setAll (vs : Variables) (values : List (String × String)) : Variables :=
  values.foldl (fun vs p => vs.set p.1 p.2) vs

theorem lookup_put (name value : String) (es : List (String × String)) (n : String) :
    (put name value es).lookup n = if n = name then some value else es.lookup n := by
  induction es with
  | nil => grind [put]
  | cons e es ih => grind [put]

@[simp] theorem get?_set (vs : Variables) (name value n : String) :
    (vs.set name value).get? n = if n = name then some value else vs.get? n :=
  lookup_put name value vs.entries n

/-- Of several values for a name the last one counts. -/
theorem get?_setAll (vs : Variables) (values : List (String × String)) (n : String) :
    (vs.setAll values).get? n = (values.reverse.lookup n).or (vs.get? n) := by
  induction values generalizing vs with
  | nil => simp [setAll]
  | cons p values ih =>
    have hstep : vs.setAll (p :: values) = (vs.set p.1 p.2).setAll values := rfl
    rw [hstep, ih, get?_set, List.reverse_cons, List.lookup_append, Option.or_assoc]
    congr 1
    rw [List.lookup_cons, List.lookup_nil]
    by_cases hn : n = p.1
    · simp [hn]
    · simp [hn, beq_false_of_ne hn]

end Variables

end RegLayer
