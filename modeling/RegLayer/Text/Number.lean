/-
# `RegLayer.Text.Number` — numbers in descriptions and in generated code

A description writes unsigned numbers in decimal, after `0x`, or in the hardware description's own
hexadecimal after `'h`.  White space around the number and underscores inside it do not count.
Digits are those of ASCII, and one plus sign may stand before them, also after a hexadecimal mark;
a number has at most 64 bits, and zeros in front do not count.

Reading goes from the front with the value so far in hand (`digitsFrom?`), in natural numbers, and
asks once at the end whether the value fits.  So the accepted texts can be described by a grammar
without bounds on lengths (`RegLayer.Proofs.Text.Numerals`).  Generated code writes hexadecimal
constants with lower-case digits and without zeros in front.
-/
import RegLayer.Checked
import RegLayer.Text.Blank
import RegLayer.Text.Pieces
import RegLayer.Text.Reader

namespace RegLayer.Text

/-! ## Digits -/

/-- The value of a character as a digit, letters of either case after nine. -/
def digitValue? (c : Char) : Option Nat :=
  if c.isDigit then some (c.toNat - 48)
  else if c.isLower then some (c.toNat - 87)
  else if c.isUpper then some (c.toNat - 55)
  else none

/-- The value of a character as a digit of the base. -/
def digit? (base : Nat) (c : Char) : Option Nat :=
  (digitValue? c).filter (· < base)

/-- The number that the digits denote, read after the value `high` of the digits before. -/
def digitsFrom? (base high : Nat) : List Char → Option Nat
  | [] => some high
  | c :: cs => (digit? base c).bind fun d => digitsFrom? base (high * base + d) cs

/-- One or more digits of the base, after a plus sign or none. -/
def unsigned? (base : Nat) (cs : List Char) : Option Nat :=
  let ds := match cs with
    | '+' :: rest => rest
    | _ => cs
  if ds.isEmpty then none else digitsFrom? base 0 ds

/-- The word of 32 bits with this value. -/
def word32? (n : Nat) : Option UInt32 :=
  if n < UInt32.size then some (UInt32.ofNat n) else none

/-- The word of 64 bits with this value. -/
def word64? (n : Nat) : Option UInt64 :=
  if n < UInt64.size then some (UInt64.ofNat n) else none

theorem toNat_word32? {n : Nat} {w : UInt32} (h : word32? n = some w) : w.toNat = n := by
  simp only [word32?] at h
  split at h
  · cases h; exact Nat.mod_eq_of_lt ‹_›
  · simp at h

theorem toNat_word64? {n : Nat} {w : UInt64} (h : word64? n = some w) : w.toNat = n := by
  simp only [word64?] at h
  split at h
  · cases h; exact Nat.mod_eq_of_lt ‹_›
  · simp at h

/-! ## Reading -/

/-- What follows a hexadecimal prefix, if there is one. -/
def afterHex? (cs : List Char) : Option (List Char) :=
  ["0x", "0X", "'h", "'H"].findSome? fun mark => after? mark cs

/-- The value of a number without white space and underscores. -/
def value? (cs : List Char) : Option Nat :=
  match afterHex? cs with
  | some ds => unsigned? 16 ds
  | none => unsigned? 10 cs

/-- The characters that count: not the white space at the ends, and no underscore. -/
def numberChars (s : String) : List Char :=
  (trimChars s.toList).filter (· != '_')

/-- Reads an unsigned number of at most 64 bits. -/
def readNumber (s : String) : Except Failure UInt64 :=
  let cs := numberChars s
  match (value? cs).bind word64? with
  | some n => .ok n
  | none => .error (.fault (.notANumber (String.ofList cs)))

/-- Takes so many digits of the base. -/
def fixedDigits (base count : Nat) : Reader Nat := fun cs =>
  let ds := cs.take count
  if ds.length = count then (digitsFrom? base 0 ds).map (·, cs.drop count) else none

/-! ## Writing -/

/-- A number in decimal, with zeros in front up to the width. -/
def padded (width n : Nat) : List Char :=
  let ds := Nat.toDigits 10 n
  List.replicate (width - ds.length) '0' ++ ds

/-- Hexadecimal digits of a number, lower case, without leading zeros. -/
def hexDigits (n : Nat) : String :=
  String.ofList (Nat.toDigits 16 n)

/-- A number as a hexadecimal constant of the generated code. -/
def hexConstant (n : UInt64) : String :=
  "'h" ++ hexDigits n.toNat

end RegLayer.Text
