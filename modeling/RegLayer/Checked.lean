/-
# `RegLayer.Checked` — arithmetic that stays in its word

Widths and bit positions have 32 bits, addresses and sizes have 64.  A sum, difference or product
that does not fit aborts the run; it never wraps.  All operations are one definition (`within`)
with the operation on natural numbers and the word that is made of the result.

The laws say this in the natural numbers: an operation has the result `w` exactly if the numbers
behind the words have the result behind `w`.  That speaks of fitting, too, since a number behind a
word is less than the size of the word.  Proofs about widths and addresses therefore leave the
words at once and end in linear arithmetic.

The shift is the one operation without an abort: bits cannot be shifted by a word or more, and
then there is no answer (`shiftRight64?`).
-/
import RegLayer.Fault

namespace RegLayer.Checked

/-- The result of an operation, provided that it fits its word. -/
def within {α : Type} (fits : Prop) [Decidable fits] (a : α) : Except Failure α :=
  if fits then .ok a else .error (.abort .overflow)

def add32 (a b : UInt32) : Except Failure UInt32 :=
  within (a.toNat + b.toNat < UInt32.size) (a + b)

def sub32 (a b : UInt32) : Except Failure UInt32 :=
  within (b.toNat ≤ a.toNat) (a - b)

def mul32 (a b : UInt32) : Except Failure UInt32 :=
  within (a.toNat * b.toNat < UInt32.size) (a * b)

def add64 (a b : UInt64) : Except Failure UInt64 :=
  within (a.toNat + b.toNat < UInt64.size) (a + b)

def mul64 (a b : UInt64) : Except Failure UInt64 :=
  within (a.toNat * b.toNat < UInt64.size) (a * b)

/-- Product of the factors, from the left. -/
def product (factors : List UInt64) : Except Failure UInt64 :=
  factors.foldlM mul64 1

/-- Sum of the terms, from the left. -/
def sum (terms : List UInt64) : Except Failure UInt64 :=
  terms.foldlM add64 0

/-- The number moved to the right, unless by all of its bits or more. -/
def shiftRight64? (a : UInt64) (bits : UInt32) : Option UInt64 :=
  if bits < 64 then some (a >>> bits.toUInt64) else none

/-! ## Laws -/

theorem within_eq_ok_iff {α : Type} {fits : Prop} [Decidable fits] {a b : α} :
    within fits a = .ok b ↔ fits ∧ a = b := by
  unfold within
  split <;> simp_all

/-- A number that is right up to multiples of the size of its word is right if it fits. -/
theorem fits_and_mod_eq_iff {n c size : Nat} (hc : c < size) :
    n < size ∧ n % size = c ↔ c = n := by
  constructor
  · rintro ⟨hn, hmod⟩
    rw [← hmod, Nat.mod_eq_of_lt hn]
  · rintro rfl
    exact ⟨hc, Nat.mod_eq_of_lt hc⟩

theorem add32_eq_ok_iff {a b c : UInt32} :
    add32 a b = .ok c ↔ c.toNat = a.toNat + b.toNat := by
  rw [add32, within_eq_ok_iff, ← UInt32.toNat_inj, UInt32.toNat_add]
  exact fits_and_mod_eq_iff c.toNat_lt

theorem sub32_eq_ok_iff {a b c : UInt32} :
    sub32 a b = .ok c ↔ c.toNat + b.toNat = a.toNat := by
  rw [sub32, within_eq_ok_iff, ← UInt32.toNat_inj]
  constructor
  · rintro ⟨h, hc⟩
    rw [UInt32.toNat_sub_of_le _ _ (UInt32.le_iff_toNat_le.2 h)] at hc
    omega
  · intro h
    have hle : b.toNat ≤ a.toNat := by omega
    refine ⟨hle, ?_⟩
    rw [UInt32.toNat_sub_of_le _ _ (UInt32.le_iff_toNat_le.2 hle)]
    omega

theorem mul32_eq_ok_iff {a b c : UInt32} :
    mul32 a b = .ok c ↔ c.toNat = a.toNat * b.toNat := by
  rw [mul32, within_eq_ok_iff, ← UInt32.toNat_inj, UInt32.toNat_mul]
  exact fits_and_mod_eq_iff c.toNat_lt

theorem add64_eq_ok_iff {a b c : UInt64} :
    add64 a b = .ok c ↔ c.toNat = a.toNat + b.toNat := by
  rw [add64, within_eq_ok_iff, ← UInt64.toNat_inj, UInt64.toNat_add]
  exact fits_and_mod_eq_iff c.toNat_lt

theorem mul64_eq_ok_iff {a b c : UInt64} :
    mul64 a b = .ok c ↔ c.toNat = a.toNat * b.toNat := by
  rw [mul64, within_eq_ok_iff, ← UInt64.toNat_inj, UInt64.toNat_mul]
  exact fits_and_mod_eq_iff c.toNat_lt

end RegLayer.Checked
