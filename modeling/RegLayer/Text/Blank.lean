/-
# `RegLayer.Text.Blank` — white space

Numbers, access policies and descriptions are read without the white space around them, and a
description's inner runs of white space count as one space.  White space is Unicode's
`White_Space` property, which has twenty-five characters and has been stable for many versions;
the property is written out here by its codes.
-/

namespace RegLayer.Text

/-- The White_Space characters. -/
def isBlank (c : Char) : Bool :=
  let n := c.toNat
  (0x09 ≤ n && n ≤ 0x0D) || n == 0x20 || n == 0x85 || n == 0xA0 || n == 0x1680 ||
    (0x2000 ≤ n && n ≤ 0x200A) || n == 0x2028 || n == 0x2029 || n == 0x202F || n == 0x205F ||
    n == 0x3000

/-- The characters without the white space at both ends. -/
def trimChars (cs : List Char) : List Char :=
  ((cs.dropWhile isBlank).reverse.dropWhile isBlank).reverse

/-- The text without the white space at both ends. -/
def trim (s : String) : String :=
  String.ofList (trimChars s.toList)

/-- One space for each run of white space; `afterBlank` says that a run is under way. -/
def squeeze (afterBlank : Bool) : List Char → List Char
  | [] => []
  | c :: cs =>
    if isBlank c then
      if afterBlank then squeeze true cs else ' ' :: squeeze true cs
    else c :: squeeze false cs

/-- The text on one line: trimmed, and with one space for each inner run of white space. -/
def tidy (s : String) : String :=
  String.ofList (squeeze false (trimChars s.toList))

end RegLayer.Text
