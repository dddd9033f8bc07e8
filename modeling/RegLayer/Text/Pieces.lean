/-
# `RegLayer.Text.Pieces` — cutting and putting together

Lists of dimensions are cut at commas, descriptions at line ends, paths at slashes, and array
names lose their placeholder by replacement.  Each operation is a recursion on the characters, and
the operations on texts are these on their lists of characters; so what is proved of them is
proved by induction on a list.

Cutting gives one piece more than there are separators (`length_cut`), of which the first and the
last may be empty.  Lines are different in this only: the last one is not counted if it is empty.
Replacement goes from the left, and an occurrence that overlaps an earlier one is not replaced.
-/

namespace RegLayer.Text

/-! ## Cutting -/

/-- The pieces between the separators; always one more than there are separators. -/
def cut (sep : Char) : List Char → List (List Char)
  | [] => [[]]
  | c :: cs =>
    if c = sep then [] :: cut sep cs
    else
      match cut sep cs with
      | [] => [[c]]
      | p :: ps => (c :: p) :: ps

/-- The pieces of a text between the separators. -/
def split (sep : Char) (s : String) : List String :=
  (cut sep s.toList).map String.ofList

/-- The lines of a text: what stands before each line feed, and the rest if there is any. -/
def lines (s : String) : List String :=
  let ps := cut '\n' s.toList
  (if ps.getLast? = some [] then ps.dropLast else ps).map String.ofList

theorem cut_ne_nil (sep : Char) (cs : List Char) : cut sep cs ≠ [] := by
  cases cs with
  | nil => simp [cut]
  | cons c cs =>
    simp only [cut]
    split
    · simp
    · split <;> simp

theorem length_cut (sep : Char) (cs : List Char) :
    (cut sep cs).length = cs.count sep + 1 := by
  induction cs with
  | nil => simp [cut]
  | cons c cs ih =>
    by_cases h : c = sep
    · simp [cut, h, ih]
    · simp only [cut, h, if_false, List.count_cons, beq_iff_eq]
      split
      · next hc => exact absurd hc (cut_ne_nil sep cs)
      · next p ps hc => rw [hc] at ih; simpa using ih

/-! ## Replacing -/

/-- Replaces the occurrences of `pat`, from the left and without overlap; `skip` characters
still belong to the last occurrence found. -/
def replaceFrom (pat rep : List Char) : Nat → List Char → List Char
  | _, [] => []
  | skip + 1, _ :: cs => replaceFrom pat rep skip cs
  | 0, c :: cs =>
    if pat.isPrefixOf (c :: cs) then rep ++ replaceFrom pat rep (pat.length - 1) cs
    else c :: replaceFrom pat rep 0 cs

/-- The text with every occurrence of `pat` replaced by `rep`. -/
def replace (s pat rep : String) : String :=
  String.ofList (replaceFrom pat.toList rep.toList 0 s.toList)

/-- What follows `front` at the start of the characters. -/
def after? (front : String) (cs : List Char) : Option (List Char) :=
  front.toList.isPrefixOf? cs

/-- Whether the pattern stands somewhere in the characters. -/
def occurs (pat : List Char) : List Char → Bool
  | [] => pat.isEmpty
  | c :: cs => pat.isPrefixOf (c :: cs) || occurs pat cs

/-- Whether `part` stands somewhere in the text. -/
def contains (s part : String) : Bool :=
  occurs part.toList s.toList

/-! ## Joining -/

/-- The texts one after the other, with `sep` between neighbours. -/
def join (sep : String) (parts : List String) : String :=
  String.intercalate sep parts

@[simp] theorem join_singleton (sep s : String) : join sep [s] = s := by
  simp [join]

theorem join_cons_cons (sep s t : String) (parts : List String) :
    join sep (s :: t :: parts) = s ++ sep ++ join sep (t :: parts) :=
  String.intercalate_cons_cons

end RegLayer.Text
