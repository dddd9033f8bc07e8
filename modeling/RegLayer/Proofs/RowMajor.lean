/-
# `RegLayer.Proofs.RowMajor` — the order of the elements of an array

The elements of an array lie one after the other, the last index running fastest.  The place of an
element in this order is computed from the left: what stands before a row is multiplied by the
length of the row, and the index in the row is added.

Taken apart at the first dimension (`rowMajor_cons`), the index of a row counts with the elements
of the row, and the rest is less than these.  So the indices can be found again by dividing, and
the elements of an array are exactly the places below its volume (`bijOn_rowMajor`).  Dimensions
may be zero, and there may be none; an array without dimensions has one element.
-/
import Mathlib.Algebra.BigOperators.Group.List.Basic
import Mathlib.Data.Set.Function
import Mathlib.Tactic.Ring
import RegLayer.Node

namespace RegLayer.ArrayShape

/-- The product of the dimensions. -/
def volume (dims : List UInt64) : Nat :=
  (dims.map UInt64.toNat).prod

@[simp] theorem volume_nil : volume [] = 1 := rfl

@[simp] theorem volume_cons (d : UInt64) (dims : List UInt64) :
    volume (d :: dims) = d.toNat * volume dims := rfl

/-- The place of an element of an array of rows, with so many rows of the array before it. -/
def placeFrom (before : ℤ) : List UInt64 → List ℤ → ℤ
  | d :: dims, i :: indices => placeFrom (before * d.toNat + i) dims indices
  | _, _ => before

/-- The place of an element in the order of the elements, the last index running fastest. -/
def rowMajor (dims : List UInt64) (indices : List ℤ) : ℤ :=
  placeFrom 0 dims indices

/-- One index for each dimension, from zero up to below the dimension. -/
def Inside (dims : List UInt64) (indices : List ℤ) : Prop :=
  List.Forall₂ (fun d i => 0 ≤ i ∧ i < (d.toNat : ℤ)) dims indices

/-! ## Row by row -/

theorem placeFrom_eq {dims : List UInt64} {indices : List ℤ} :
    indices.length = dims.length →
      ∀ before, placeFrom before dims indices = before * volume dims + rowMajor dims indices := by
  induction dims generalizing indices with
  | nil =>
    intro _ before
    simp [rowMajor, placeFrom]
  | cons d dims ih =>
    intro hlen before
    obtain ⟨i, indices, rfl⟩ := List.exists_cons_of_length_eq_add_one hlen
    have hlen : indices.length = dims.length := by simpa using hlen
    simp only [rowMajor, placeFrom]
    rw [ih hlen, ih hlen, volume_cons]
    push_cast
    ring

/-- A row stands behind the rows before it. -/
theorem rowMajor_cons (d : UInt64) (i : ℤ) {dims : List UInt64} {indices : List ℤ} :
    indices.length = dims.length →
      rowMajor (d :: dims) (i :: indices) = i * volume dims + rowMajor dims indices := by
  intro hlen
  have hrow := placeFrom_eq hlen (0 * d.toNat + i)
  rw [zero_mul, zero_add] at hrow
  simpa [rowMajor, placeFrom] using hrow

/-! ## Every place once -/

theorem Inside.length_eq {dims : List UInt64} {indices : List ℤ} :
    Inside dims indices → indices.length = dims.length :=
  fun h => (List.Forall₂.length_eq h).symm

theorem Inside.rowMajor_lt {dims : List UInt64} {indices : List ℤ} :
    Inside dims indices →
      0 ≤ rowMajor dims indices ∧ rowMajor dims indices < (volume dims : ℤ) := by
  intro h
  induction h with
  | nil => simp [rowMajor, placeFrom]
  | @cons d i dims indices hd hrest ih =>
    obtain ⟨hlow, hhigh⟩ := ih
    rw [rowMajor_cons d i (Inside.length_eq hrest), volume_cons]
    have hrows : i * volume dims + volume dims ≤ d.toNat * volume dims := by
      rw [← add_one_mul]
      exact Int.mul_le_mul_of_nonneg_right (by omega) (Int.natCast_nonneg _)
    have hbefore : 0 ≤ i * (volume dims : ℤ) := Int.mul_nonneg hd.1 (Int.natCast_nonneg _)
    push_cast
    constructor <;> omega

theorem row_and_rest {v i r j s : ℤ} (hr : 0 ≤ r ∧ r < v) (hs : 0 ≤ s ∧ s < v) :
    i * v + r = j * v + s → i = j ∧ r = s := by
  intro h
  have hpos : v ≠ 0 := by omega
  have hi : (i * v + r) / v = i := by
    rw [Int.add_comm, Int.add_mul_ediv_right _ _ hpos, Int.ediv_eq_zero_of_lt hr.1 hr.2, zero_add]
  have hj : (j * v + s) / v = j := by
    rw [Int.add_comm, Int.add_mul_ediv_right _ _ hpos, Int.ediv_eq_zero_of_lt hs.1 hs.2, zero_add]
  have hij : i = j := by rw [← hi, h, hj]
  subst hij
  exact ⟨rfl, by omega⟩

theorem Inside.eq_of_rowMajor_eq {dims : List UInt64} {indices others : List ℤ} :
    Inside dims indices → Inside dims others →
      rowMajor dims indices = rowMajor dims others → indices = others := by
  intro h
  induction h generalizing others with
  | nil =>
    intro hothers _
    exact (List.forall₂_nil_left_iff.1 hothers).symm
  | @cons d i dims indices hd hrest ih =>
    intro hothers heq
    obtain ⟨j, rest, _, hrest', rfl⟩ := List.forall₂_cons_left_iff.1 hothers
    rw [rowMajor_cons d i (Inside.length_eq hrest),
      rowMajor_cons d j (Inside.length_eq hrest')] at heq
    obtain ⟨rfl, hplace⟩ :=
      row_and_rest (Inside.rowMajor_lt hrest) (Inside.rowMajor_lt hrest') heq
    rw [ih hrest' hplace]

theorem exists_inside {dims : List UInt64} :
    ∀ {n : ℤ}, 0 ≤ n ∧ n < (volume dims : ℤ) →
      ∃ indices, Inside dims indices ∧ rowMajor dims indices = n := by
  induction dims with
  | nil =>
    rintro n ⟨hlow, hhigh⟩
    refine ⟨[], .nil, ?_⟩
    simp only [volume_nil] at hhigh
    simp only [rowMajor, placeFrom]
    omega
  | cons d dims ih =>
    rintro n ⟨hlow, hhigh⟩
    rw [volume_cons] at hhigh
    have hpos : 0 < (volume dims : ℤ) := by
      refine Int.natCast_pos.2 (Nat.pos_of_ne_zero fun hzero => ?_)
      rw [hzero] at hhigh
      omega
    obtain ⟨indices, hinside, hplace⟩ :=
      ih ⟨Int.emod_nonneg n (Int.ne_of_gt hpos), Int.emod_lt_of_pos n hpos⟩
    have hrow : n / volume dims < d.toNat := by
      refine Int.ediv_lt_of_lt_mul hpos ?_
      exact_mod_cast hhigh
    refine ⟨n / volume dims :: indices,
      .cons ⟨Int.ediv_nonneg hlow (Int.le_of_lt hpos), hrow⟩ hinside, ?_⟩
    rw [rowMajor_cons d _ (Inside.length_eq hinside), hplace]
    exact Int.ediv_mul_add_emod n _

/-- **Row-major order counts the elements**: the elements inside an array and the places below its
volume are one to one. -/
theorem bijOn_rowMajor (dims : List UInt64) :
    Set.BijOn (rowMajor dims) {indices | Inside dims indices}
      {n | 0 ≤ n ∧ n < (volume dims : ℤ)} := by
  refine ⟨?_, ?_, ?_⟩
  · intro indices h
    exact Inside.rowMajor_lt h
  · intro indices h others hothers
    exact Inside.eq_of_rowMajor_eq h hothers
  · intro n hn
    exact exists_inside hn

/-- In an array of two rows of three, the second element of the second row is the fifth of all. -/
example : rowMajor [2, 3] [1, 1] = 4 := by
  decide

end RegLayer.ArrayShape
