/-
# `RegLayer.Proofs.Classes.Offsets` — the addresses of the elements of an array

In the generated code the offset of an array is a sum over the loop variables around it.  The text
is read back as such a sum, summand by summand (`ofText?_text`): between plus signs stand the
constant and the products, and no name of a variable and no digit can be taken for an operator.
So the value of the expression is a function of what is written, and not of how it was made.

The factors of the variables are the distances in the array (`ArrayShape.distances`), and what
they add up to is the place in row-major order times the stride (`sum_distances`).  Together:
under indices inside the array, the expression has the address of the element, and every element
is met once (`elements_in_row_major_order`).  The variables are those of the loop that stands
around it.

Taken as given: nothing about the array.  An expression is there unless a step leaves its word,
and a bound under which none does is part of the result.
-/
import Mathlib.Algebra.Order.BigOperators.Group.List
import Mathlib.Algebra.Order.Ring.Abs
import RegLayer.Proofs.Classes.Overflow
import RegLayer.Proofs.RowMajor
import RegLayer.Proofs.Text.Lines
import RegLayer.Proofs.Text.Numbers

namespace RegLayer

/-! ## Sums in the generated code -/

/-- A sum of a constant and products, each of a variable and a constant. -/
structure LinearSum where
  constant : Nat
  terms : List (String × Nat)
  deriving DecidableEq, Repr

namespace LinearSum

open Text

/-- The value of the sum where the variables have these values. -/
def value (e : LinearSum) (x : String → ℤ) : ℤ :=
  e.constant + (e.terms.map fun t => x t.1 * t.2).sum

/-- Reads a hexadecimal constant: a mark, and digits behind it. -/
def constant? (cs : List Char) : Option Nat :=
  (after? "'h" cs).bind fun ds => if ds.isEmpty then none else digitsFrom? 16 0 ds

/-- Reads a product of a variable and a constant. -/
def product? (cs : List Char) : Option (String × Nat) :=
  match cut '*' cs with
  | [x, c] => (constant? c).map (String.ofList x, ·)
  | _ => none

/-- Reads a sum: the summands stand between plus signs, with white space around them. -/
def ofText? (s : String) : Option LinearSum :=
  match (cut '+' s.toList).map trimChars with
  | first :: rest => do return ⟨← constant? first, ← rest.mapM product?⟩
  | [] => none

/-! ### Reading back -/

/-- A constant as it is written. -/
def constantChars (n : Nat) : List Char :=
  '\'' :: 'h' :: Nat.toDigits 16 n

/-- A product as it is written. -/
def productChars (t : String × Nat) : List Char :=
  t.1.toList ++ '*' :: constantChars t.2

/-- A sum as it is written. -/
def text (e : LinearSum) : String :=
  String.ofList (constantChars e.constant ++
    e.terms.flatMap fun t => ' ' :: '+' :: ' ' :: productChars t)

/-- The variable is a word. -/
def IsVariable (x : String) : Prop :=
  ∀ c ∈ x.toList, isAsciiWordChar c = true

theorem apart_of_mem_constantChars {n : Nat} {c : Char} :
    c ∈ constantChars n → isBlank c = false ∧ c ≠ '+' ∧ c ≠ '*' := by
  intro hc
  simp only [constantChars, List.mem_cons] at hc
  rcases hc with rfl | rfl | hc
  · decide
  · decide
  · obtain ⟨d, hd⟩ := digit?_of_toDigits (by decide) (by decide) hc
    exact apart_of_isAsciiWordChar (isAsciiWordChar_of_digit? hd)

theorem apart_of_mem_productChars {t : String × Nat} {c : Char} :
    IsVariable t.1 → c ∈ productChars t → isBlank c = false ∧ c ≠ '+' := by
  intro hvar hc
  simp only [productChars, List.mem_append, List.mem_cons] at hc
  rcases hc with hc | rfl | hc
  · exact ⟨(apart_of_isAsciiWordChar (hvar c hc)).1, (apart_of_isAsciiWordChar (hvar c hc)).2.1⟩
  · decide
  · exact ⟨(apart_of_mem_constantChars hc).1, (apart_of_mem_constantChars hc).2.1⟩

theorem constant?_constantChars (n : Nat) : constant? (constantChars n) = some n := by
  have hafter : after? "'h" (constantChars n) = some (Nat.toDigits 16 n) := by
    simp [after?, constantChars, List.isPrefixOf?]
  simp [constant?, hafter, digitsFrom?_toDigits, Nat.toDigits_ne_nil]

theorem product?_productChars {t : String × Nat} :
    IsVariable t.1 → product? (productChars t) = some t := by
  intro hvar
  have hname : '*' ∉ t.1.toList := fun h => (apart_of_isAsciiWordChar (hvar _ h)).2.2 rfl
  have hconstant : '*' ∉ constantChars t.2 := fun h => (apart_of_mem_constantChars h).2.2 rfl
  rw [product?, productChars, cut_append, cut_of_not_mem hname, cut_of_not_mem hconstant]
  simp [constant?_constantChars]

theorem summands {cs : List Char} {ts : List (String × Nat)} :
    (∀ t ∈ ts, IsVariable t.1) → '+' ∉ cs →
      (cut '+' (cs ++ ts.flatMap fun t => ' ' :: '+' :: ' ' :: productChars t)).map trimChars =
        trimChars cs :: ts.map productChars := by
  intro hvars hcs
  induction ts generalizing cs with
  | nil => simp [cut_of_not_mem hcs]
  | cons t ts ih =>
    obtain ⟨hvar, hvars⟩ := List.forall_mem_cons.1 hvars
    have hfront : '+' ∉ cs ++ [' '] := by simp [hcs]
    have hnext : '+' ∉ ' ' :: productChars t := by
      intro h
      rcases List.mem_cons.1 h with h | h
      · exact absurd h (by decide)
      · exact (apart_of_mem_productChars hvar h).2 rfl
    have hblank : ∀ c ∈ productChars t, isBlank c = false := fun c hc =>
      (apart_of_mem_productChars hvar hc).1
    have hsplit : cs ++ (t :: ts).flatMap (fun t => ' ' :: '+' :: ' ' :: productChars t) =
        (cs ++ [' ']) ++ '+' :: (' ' :: productChars t ++
          ts.flatMap fun t => ' ' :: '+' :: ' ' :: productChars t) := by
      simp
    rw [hsplit, cut_append, cut_of_not_mem hfront, List.map_append, ih hvars hnext,
      trimChars_cons_blank _ (by decide), trimChars_of_forall hblank]
    simp [trimChars_concat_blank cs (show isBlank ' ' = true by decide)]

theorem mapM_map_eq_some {α β : Type} {f : α → β} {g : β → Option α} {l : List α} :
    (∀ a ∈ l, g (f a) = some a) → (l.map f).mapM g = some l := by
  intro h
  induction l with
  | nil => rfl
  | cons a l ih =>
    obtain ⟨ha, hl⟩ := List.forall_mem_cons.1 h
    simp [ha, ih hl]

/-- **A sum that is written is read back.** -/
theorem ofText?_text {e : LinearSum} :
    (∀ t ∈ e.terms, IsVariable t.1) → ofText? e.text = some e := by
  intro hvars
  have hplus : '+' ∉ constantChars e.constant := fun h => (apart_of_mem_constantChars h).2.1 rfl
  have hblank : ∀ c ∈ constantChars e.constant, isBlank c = false := fun c hc =>
    (apart_of_mem_constantChars hc).1
  have hterms : (e.terms.map productChars).mapM product? = some e.terms :=
    mapM_map_eq_some fun t ht => product?_productChars (hvars t ht)
  rw [ofText?, text, String.toList_ofList, summands hvars hplus, trimChars_of_forall hblank]
  simp [constant?_constantChars, hterms]

end LinearSum

/-! ## Offsets as sums -/

namespace Offset

open Text LinearSum

/-- The sum that an offset is: each loop variable counts with its step. -/
def sum (o : Offset) : LinearSum where
  constant := o.base.toNat
  terms := o.steps.mapIdx fun k step => (loopVariable k, step.toNat)

theorem toList_loopVariable (k : Nat) : (loopVariable k).toList = 'i' :: Nat.toDigits 10 k := by
  simp [loopVariable, Nat.toList_repr]

theorem isVariable_loopVariable (k : Nat) : IsVariable (loopVariable k) := by
  intro c hc
  rw [toList_loopVariable] at hc
  rcases List.mem_cons.1 hc with rfl | hc
  · decide
  · obtain ⟨d, hd⟩ := digit?_of_toDigits (by decide) (by decide) hc
    exact isAsciiWordChar_of_digit? hd

theorem loopVariable_inj {j k : Nat} : loopVariable j = loopVariable k → j = k := by
  intro h
  have hdigits : Nat.toDigits 10 j = Nat.toDigits 10 k := by
    have hlist := congrArg String.toList h
    rw [toList_loopVariable, toList_loopVariable] at hlist
    exact (List.cons.inj hlist).2
  have hread := @digitsFrom?_toDigits 10 (by decide) (by decide) j
  rw [hdigits, digitsFrom?_toDigits (by decide) (by decide)] at hread
  exact (Option.some.inj hread).symm

theorem text_eq (o : Offset) : o.text = o.sum.text := by
  have hterms : ∀ ts : List (String × Nat),
      (String.join (ts.map fun t => " + " ++ t.1 ++ "*" ++ ("'h" ++ hexDigits t.2))).toList =
        ts.flatMap fun t => ' ' :: '+' :: ' ' :: productChars t := by
    intro ts
    induction ts with
    | nil => rfl
    | cons t ts ih =>
      rw [List.map_cons, String.join_cons, String.toList_append, ih]
      simp [productChars, constantChars, hexDigits]
  apply String.toList_injective
  have hsteps : (o.steps.mapIdx fun k step =>
      " + " ++ loopVariable k ++ "*" ++ hexConstant step) =
        o.sum.terms.map fun t => " + " ++ t.1 ++ "*" ++ ("'h" ++ hexDigits t.2) := by
    simp [sum, List.mapIdx_eq_zipIdx_map, hexConstant]
  rw [Offset.text, hsteps, String.toList_append, hterms]
  simp [LinearSum.text, constantChars, hexConstant, hexDigits, sum]

/-- **The text of an offset is read as its sum.** -/
theorem ofText?_text (o : Offset) : ofText? o.text = some o.sum := by
  rw [text_eq]
  refine LinearSum.ofText?_text fun t ht => ?_
  obtain ⟨k, hk, rfl⟩ := List.mem_mapIdx.1 ht
  exact isVariable_loopVariable k

/-! ### Adding up the steps -/

/-- The steps count the place of an element, once for each stride. -/
theorem sum_distances (stride : UInt64) {dims : List UInt64} :
    ∀ {indices : List ℤ}, indices.length = dims.length →
      (List.zipWith (fun i (step : Nat) => i * (step : ℤ)) indices
        (ArrayShape.distances stride dims)).sum =
          stride.toNat * ArrayShape.rowMajor dims indices := by
  induction dims with
  | nil => intro indices _; simp [ArrayShape.distances, ArrayShape.rowMajor, ArrayShape.placeFrom]
  | cons d dims ih =>
    intro indices hlen
    obtain ⟨i, indices, rfl⟩ := List.exists_cons_of_length_eq_add_one hlen
    have hlen : indices.length = dims.length := by simpa using hlen
    have hstep : ((dims.map UInt64.toNat).prod : ℤ) = ArrayShape.volume dims := rfl
    rw [ArrayShape.distances, List.zipWith_cons_cons, List.sum_cons, ih hlen,
      ArrayShape.rowMajor_cons d i hlen, Nat.cast_mul, hstep]
    ring

theorem terms_sum {o : Offset} {dims : List UInt64} :
    o.steps.length = dims.length →
      o.sum.terms = (Classes.loopVariables dims).zip (o.steps.map UInt64.toNat) := by
  intro hlen
  refine List.ext_getElem (by simp [sum, Classes.loopVariables, hlen]) fun k hk _ => ?_
  simp [sum, Classes.loopVariables]

theorem nodup_loopVariables (dims : List UInt64) : (Classes.loopVariables dims).Nodup :=
  List.nodup_range.map fun _ _ => loopVariable_inj

theorem exists_values {dims : List UInt64} {indices : List ℤ} :
    indices.length = dims.length → ∃ x, (Classes.loopVariables dims).map x = indices := by
  intro hlen
  refine ⟨fun v => indices.getD ((Classes.loopVariables dims).idxOf v) 0, ?_⟩
  refine List.ext_getElem (by simp [Classes.loopVariables, hlen]) fun k hk hk' => ?_
  rw [List.getElem_map, (nodup_loopVariables dims).idxOf_getElem]
  simp [hk']

theorem length_distances (stride : UInt64) (dims : List UInt64) :
    (ArrayShape.distances stride dims).length = dims.length := by
  induction dims with
  | nil => rfl
  | cons d dims ih => simp [ArrayShape.distances, ih]

/-! ### Steps that fit -/

theorem volume_le_of_sublist {part dims : List UInt64} :
    (∀ d ∈ dims, 1 ≤ d.toNat) → part.Sublist dims →
      (part.map UInt64.toNat).prod ≤ ArrayShape.volume dims := by
  intro hdims hpart
  refine (hpart.map UInt64.toNat).prod_le_prod' fun a ha => ?_
  obtain ⟨d, hd, rfl⟩ := List.mem_map.1 ha
  exact hdims d hd

theorem stepsFit_of_lt {shape : ArrayShape} :
    (∀ d ∈ shape.dims, 1 ≤ d.toNat) →
      max shape.stride.toNat 1 * ArrayShape.volume shape.dims.tail < 2 ^ 64 →
        shape.StepsFit := by
  intro hdims hroom d inner hsuffix
  have htail : ∀ d ∈ shape.dims.tail, 1 ≤ d.toNat := fun d hd => hdims d (List.mem_of_mem_tail hd)
  have hinner : inner.Sublist shape.dims.tail := by
    obtain ⟨front, hfront⟩ := hsuffix
    cases front with
    | nil => simp [← hfront]
    | cons c front => simp [← hfront]
  have hsize : UInt64.size = 2 ^ 64 := rfl
  constructor
  · intro first hfirst
    have hle := volume_le_of_sublist htail (hfirst.sublist.trans hinner)
    have hone := Nat.mul_le_mul_right (ArrayShape.volume shape.dims.tail)
      (Nat.le_max_right shape.stride.toNat 1)
    omega
  · have hle := Nat.mul_le_mul (volume_le_of_sublist htail hinner)
      (Nat.le_max_left shape.stride.toNat 1)
    rw [Nat.mul_comm (ArrayShape.volume _)] at hle
    omega

/-! ## The elements of an array -/

/-- The sum gives the addresses of the elements of an array that begins at the base. -/
structure Addresses (e : LinearSum) (base : UInt64) (shape : ArrayShape) : Prop where
  /-- Its variables are the loop variables around it, in their order. -/
  names : e.terms.map Prod.fst = Classes.loopVariables shape.dims
  /-- These are free to take any indices. -/
  free : ∀ indices : List ℤ, indices.length = shape.dims.length →
    ∃ x, (Classes.loopVariables shape.dims).map x = indices
  /-- An element is as many strides from the base as there are elements before it. -/
  value : ∀ x, e.value x = base.toNat +
    shape.stride.toNat * ArrayShape.rowMajor shape.dims ((Classes.loopVariables shape.dims).map x)
  /-- Different elements are a stride apart or more. -/
  apart : ∀ x y, ArrayShape.Inside shape.dims ((Classes.loopVariables shape.dims).map x) →
    ArrayShape.Inside shape.dims ((Classes.loopVariables shape.dims).map y) →
    (Classes.loopVariables shape.dims).map x ≠ (Classes.loopVariables shape.dims).map y →
    (shape.stride.toNat : ℤ) ≤ |e.value x - e.value y|

theorem addresses_sum {n : Node} {shape : ArrayShape} {o : Offset} (harray : n.array = some shape) :
    ofNode n = .ok o → Addresses o.sum n.offset shape := by
  intro hoffset
  obtain ⟨hbase, hsteps⟩ := eq_of_ofNode hoffset
  rw [harray] at hsteps
  have hsteps : o.steps.map UInt64.toNat = ArrayShape.distances shape.stride shape.dims := hsteps
  have hlen : o.steps.length = shape.dims.length := by
    have hlengths := congrArg List.length hsteps
    rwa [List.length_map, length_distances] at hlengths
  have hterms := terms_sum hlen
  rw [hsteps] at hterms
  have hvalue : ∀ x, o.sum.value x = n.offset.toNat + shape.stride.toNat *
      ArrayShape.rowMajor shape.dims ((Classes.loopVariables shape.dims).map x) := by
    intro x
    have hindices : ((Classes.loopVariables shape.dims).map x).length = shape.dims.length := by
      simp [Classes.loopVariables]
    rw [← sum_distances shape.stride hindices, LinearSum.value, hterms, ← hbase]
    simp [List.zip, List.map_zipWith, List.zipWith_map_left, sum]
  refine ⟨?_, fun indices hindices => exists_values hindices, hvalue, ?_⟩
  · rw [hterms, List.map_fst_zip]
    simp [Classes.loopVariables, length_distances]
  · intro x y hx hy hne
    have hplace : ArrayShape.rowMajor shape.dims ((Classes.loopVariables shape.dims).map x) -
        ArrayShape.rowMajor shape.dims ((Classes.loopVariables shape.dims).map y) ≠ 0 := by
      intro h
      exact hne (hx.eq_of_rowMajor_eq hy (sub_eq_zero.1 h))
    rw [hvalue, hvalue, add_sub_add_left_eq_sub, ← mul_sub, abs_mul, Nat.abs_cast]
    exact le_mul_of_one_le_right (Int.natCast_nonneg _) (Int.one_le_abs hplace)

/-- **The elements of an array lie in row-major order.**  Where an array has an offset, the text of
it is read as a sum over the variables of the loop that it stands in, and the value of the sum is
the address of the element that these select.  Row-major order counts the elements inside the array
one to one.  And there is an offset if no dimension is zero and the steps leave room in a word. -/
theorem elements_in_row_major_order {n : Node} {shape : ArrayShape}
    (harray : n.array = some shape) :
    (∀ o, ofNode n = .ok o → ∃ e, LinearSum.ofText? o.text = some e ∧
      Addresses e n.offset shape ∧
      ∀ (style : Classes.CodeStyle) (member : Classes.Member), member.dims = some shape.dims →
        (Classes.memberLines style member).head? = some (Classes.indented 2
          ("foreach(this." ++ member.name ++ "[" ++ Text.join ", " (e.terms.map Prod.fst) ++
            "]) begin"))) ∧
    Set.BijOn (ArrayShape.rowMajor shape.dims) {indices | ArrayShape.Inside shape.dims indices}
      {n | 0 ≤ n ∧ n < (ArrayShape.volume shape.dims : ℤ)} ∧
    ((∀ d ∈ shape.dims, 1 ≤ d.toNat) →
      max shape.stride.toNat 1 * ArrayShape.volume shape.dims.tail < 2 ^ 64 →
        ∃ o, ofNode n = .ok o) := by
  refine ⟨?_, ArrayShape.bijOn_rowMajor shape.dims, ?_⟩
  · intro o hoffset
    have haddresses := addresses_sum harray hoffset
    refine ⟨o.sum, ofText?_text o, haddresses, ?_⟩
    intro style member hdims
    simp [Classes.memberLines, hdims, haddresses.names]
  · intro hdims hroom
    refine exists_ofNode_iff.2 fun shape' hshape => ?_
    obtain rfl := Option.some.inj (harray.symm.trans hshape)
    exact stepsFit_of_lt hdims hroom

/-- Two rows of three registers. -/
def scratch : Node :=
  { name := "scratch", kind := .reg 32 32, offset := 0x10, array := some ⟨[2, 3], 4⟩ }

theorem elements_in_row_major_order_scratch :
    ∃ o e, ofNode scratch = .ok o ∧ o.text = "'h10 + i0*'hc + i1*'h4" ∧
      LinearSum.ofText? o.text = some e ∧ Addresses e 0x10 ⟨[2, 3], 4⟩ ∧
      e.value (fun v => if v = "i0" then 1 else 2) = 0x24 := by
  obtain ⟨hread, _, hthere⟩ :=
    elements_in_row_major_order (show scratch.array = some ⟨[2, 3], 4⟩ from rfl)
  obtain ⟨o, ho⟩ := hthere (by simp) (by decide)
  obtain ⟨e, he, haddresses, _⟩ := hread o ho
  have htext : o.text = "'h10 + i0*'hc + i1*'h4" := by
    have hscratch : ofNode scratch = .ok ⟨0x10, [12, 4]⟩ := by decide
    obtain rfl := Except.ok.inj (ho.symm.trans hscratch)
    decide
  refine ⟨o, e, ho, htext, he, haddresses, ?_⟩
  rw [haddresses.value]
  decide

end Offset

end RegLayer
