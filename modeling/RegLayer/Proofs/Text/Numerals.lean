/-
# `RegLayer.Proofs.Text.Numerals` — which texts are numbers

What a number is written as is said by a grammar that does not mention the reader: digits of a
base with their values (`Digits`), a plus sign before them or none (`Unsigned`), and a hexadecimal
mark before that or none (`Numeral`).  Each part of the reader accepts exactly the part of the
grammar that it reads, and finds the value that the grammar gives it.

`readNumber_exact` puts them together for every text: which characters of it count, that it is
read as a number exactly if these are a numeral whose value fits, that it is refused with a fault
otherwise, and that every spelling of a number is read back, with white space around it and
underscores anywhere in it.
-/
import Mathlib.Data.List.Forall2
import Mathlib.Data.List.TakeWhile
import Mathlib.Data.Nat.Digits.Defs
import RegLayer.Proofs.Text.Numbers

namespace RegLayer.Text

/-! ## The grammar -/

/-- The character is a digit of the base and has this value; letters count in either case. -/
def IsDigit (base : Nat) (c : Char) (d : Nat) : Prop :=
  d < base ∧ ("0123456789abcdef".toList[d]? = some c ∨ "0123456789ABCDEF".toList[d]? = some c)

/-- One or more digits that denote the number, the highest one first. -/
def Digits (base : Nat) (cs : List Char) (n : Nat) : Prop :=
  cs ≠ [] ∧ ∃ ds, List.Forall₂ (IsDigit base) cs ds ∧ n = Nat.ofDigits base ds.reverse

/-- Digits that denote the number, with a plus sign before them or without. -/
def Unsigned (base : Nat) (cs : List Char) (n : Nat) : Prop :=
  Digits base cs n ∨ ∃ ds, cs = '+' :: ds ∧ Digits base ds n

/-- The marks of hexadecimal numbers. -/
def hexMarks : List String := ["0x", "0X", "'h", "'H"]

/-- The characters are a number without white space and underscores, with this value. -/
inductive Numeral : List Char → Nat → Prop
  | decimal {cs : List Char} {n : Nat} : Unsigned 10 cs n → Numeral cs n
  | hexadecimal {mark : String} {cs : List Char} {n : Nat} : mark ∈ hexMarks → Unsigned 16 cs n →
      Numeral (mark.toList ++ cs) n

/-! ## Digits -/

theorem digit?_eq_some_iff {base : Nat} (hbase : base ≤ 16) {c : Char} {d : Nat} :
    digit? base c = some d ↔ IsDigit base c d := by
  constructor
  · intro h
    obtain ⟨hvalue, hlt⟩ := Option.filter_eq_some_iff.1 h
    have hd : d < base := by simpa using hlt
    have hascii : c.toNat < 128 := by
      have := (toNat_of_isAsciiWordChar (isAsciiWordChar_of_digit? h)).2
      omega
    have hall : ∀ n < 128, ∀ d ∈ digitValue? (Char.ofNat n), d < 16 →
        "0123456789abcdef".toList[d]? = some (Char.ofNat n) ∨
          "0123456789ABCDEF".toList[d]? = some (Char.ofNat n) := by decide
    have hchar := hall c.toNat hascii d
    rw [Char.ofNat_toNat] at hchar
    exact ⟨hd, hchar hvalue (by omega)⟩
  · rintro ⟨hd, hchar⟩
    have hall : ∀ d < 16, "0123456789abcdef".toList[d]?.bind digitValue? = some d ∧
        "0123456789ABCDEF".toList[d]?.bind digitValue? = some d := by decide
    have hvalue : digitValue? c = some d := by
      obtain ⟨hlower, hupper⟩ := hall d (by omega)
      rcases hchar with hc | hc
      · rwa [hc] at hlower
      · rwa [hc] at hupper
    rw [digit?, hvalue]
    simpa using hd

theorem digitsFrom?_eq_some_iff {base : Nat} (hbase : base ≤ 16) {cs : List Char} :
    ∀ {high n}, digitsFrom? base high cs = some n ↔
      ∃ ds, List.Forall₂ (IsDigit base) cs ds ∧
        n = high * base ^ ds.length + Nat.ofDigits base ds.reverse := by
  induction cs with
  | nil =>
    intro high n
    simp [digitsFrom?, List.forall₂_nil_left_iff, eq_comm]
  | cons c cs ih =>
    intro high n
    have hvalue : ∀ d (ds : List Nat),
        (high * base + d) * base ^ ds.length + Nat.ofDigits base ds.reverse =
          high * base ^ (d :: ds).length + Nat.ofDigits base (d :: ds).reverse := by
      intro d ds
      rw [List.reverse_cons, Nat.ofDigits_append, Nat.ofDigits_singleton, List.length_reverse,
        List.length_cons, pow_succ]
      ring
    simp only [digitsFrom?, Option.bind_eq_some_iff, digit?_eq_some_iff hbase, ih]
    constructor
    · rintro ⟨d, hd, ds, hds, rfl⟩
      exact ⟨d :: ds, .cons hd hds, hvalue d ds⟩
    · rintro ⟨_, hall, rfl⟩
      obtain ⟨d, ds, hd, hds, rfl⟩ := List.forall₂_cons_left_iff.1 hall
      exact ⟨d, hd, ds, hds, (hvalue d ds).symm⟩

theorem digits_iff {base : Nat} (hbase : base ≤ 16) {cs : List Char} {n : Nat} :
    Digits base cs n ↔ cs ≠ [] ∧ digitsFrom? base 0 cs = some n := by
  simp [Digits, digitsFrom?_eq_some_iff hbase]

theorem Digits.not_mem {base n : Nat} (hbase : base ≤ 16) {c : Char} {cs : List Char} :
    Digits base cs n → digit? base c = none → c ∉ cs := by
  intro h hnone hmem
  obtain ⟨d, hd⟩ := digit?_of_digitsFrom? ((digits_iff hbase).1 h).2 c hmem
  simp [hnone] at hd

theorem Unsigned.not_mem {base n : Nat} (hbase : base ≤ 16) {c : Char} {cs : List Char} :
    Unsigned base cs n → digit? base c = none → c ≠ '+' → c ∉ cs := by
  rintro (h | ⟨ds, rfl, h⟩) hnone hplus
  · exact h.not_mem hbase hnone
  · exact fun hmem => (List.mem_cons.1 hmem).elim hplus (h.not_mem hbase hnone)

theorem digit?_plus (base : Nat) : digit? base '+' = none := by
  have hvalue : digitValue? '+' = none := by decide
  rw [digit?, hvalue]
  rfl

theorem unsigned?_eq_some_iff {base : Nat} (hbase : base ≤ 16) {cs : List Char} {n : Nat} :
    unsigned? base cs = some n ↔ Unsigned base cs n := by
  have hread : ∀ ds : List Char,
      (if ds.isEmpty then none else digitsFrom? base 0 ds) = some n ↔ Digits base ds n := by
    intro ds
    rw [digits_iff hbase]
    cases ds <;> simp
  unfold unsigned?
  split
  · next rest =>
    rw [hread]
    constructor
    · exact fun h => Or.inr ⟨rest, rfl, h⟩
    · rintro (h | ⟨ds, heq, h⟩)
      · exact absurd List.mem_cons_self (h.not_mem hbase (digit?_plus base))
      · obtain rfl := (List.cons.inj heq).2
        exact h
  · next hplain =>
    rw [hread]
    constructor
    · exact Or.inl
    · rintro (h | ⟨ds, rfl, _⟩)
      · exact h
      · exact absurd rfl (hplain ds)

/-! ## Whole numbers -/

theorem afterHex?_eq_some_iff {cs ds : List Char} :
    afterHex? cs = some ds ↔ ∃ mark ∈ hexMarks, cs = mark.toList ++ ds := by
  constructor
  · intro h
    obtain ⟨mark, hmark, hafter⟩ := List.exists_of_findSome?_eq_some h
    exact ⟨mark, hmark, (List.isPrefixOf?_eq_some_iff_append_eq.1 hafter).symm⟩
  · rintro ⟨mark, hmark, rfl⟩
    simp only [hexMarks, List.mem_cons, List.not_mem_nil, or_false] at hmark
    rcases hmark with rfl | rfl | rfl | rfl <;> rfl

theorem not_unsigned_of_mark {mark : String} {ds : List Char} {n : Nat} :
    mark ∈ hexMarks → ¬Unsigned 10 (mark.toList ++ ds) n := by
  intro hmark h
  have hall : (hexMarks.all fun mark =>
      mark.toList.any fun c => digit? 10 c == none && c != '+') = true := by decide
  obtain ⟨c, hc, hletter⟩ := List.any_eq_true.1 (List.all_eq_true.1 hall mark hmark)
  rw [Bool.and_eq_true, beq_iff_eq, bne_iff_ne] at hletter
  exact h.not_mem (by decide) hletter.1 hletter.2 (List.mem_append_left ds hc)

/-- **The reader of numbers accepts the grammar, and finds the value.** -/
theorem value?_eq_some_iff {cs : List Char} {n : Nat} : value? cs = some n ↔ Numeral cs n := by
  unfold value?
  split
  · next ds hhex =>
    obtain ⟨mark, hmark, rfl⟩ := afterHex?_eq_some_iff.1 hhex
    rw [unsigned?_eq_some_iff (by decide)]
    constructor
    · exact .hexadecimal hmark
    · intro h
      generalize hcs : mark.toList ++ ds = cs at h hhex
      cases h with
      | decimal h => exact absurd (hcs ▸ h) (not_unsigned_of_mark hmark)
      | hexadecimal hmark' h =>
        obtain rfl := Option.some.inj (hhex.symm.trans (afterHex?_eq_some_iff.2 ⟨_, hmark', rfl⟩))
        exact h
  · next hnone =>
    rw [unsigned?_eq_some_iff (by decide)]
    constructor
    · exact .decimal
    · intro h
      cases h with
      | decimal h => exact h
      | hexadecimal hmark _ =>
        simp [afterHex?_eq_some_iff.2 ⟨_, hmark, rfl⟩] at hnone

theorem word64?_eq_some_iff {n : Nat} {v : UInt64} : word64? n = some v ↔ n = v.toNat := by
  constructor
  · exact fun h => (toNat_word64? h).symm
  · rintro rfl
    rw [word64?, if_pos v.toNat_lt_size, UInt64.ofNat_toNat]

theorem bind_word64?_eq_some_iff {s : String} {v : UInt64} :
    (value? (numberChars s)).bind word64? = some v ↔ Numeral (numberChars s) v.toNat := by
  simp [Option.bind_eq_some_iff, word64?_eq_some_iff, ← value?_eq_some_iff]

theorem readNumber_eq_ok_iff {s : String} {v : UInt64} :
    readNumber s = .ok v ↔ Numeral (numberChars s) v.toNat := by
  rw [← bind_word64?_eq_some_iff]
  simp only [readNumber]
  split
  · next w hw => simp [hw]
  · next hnone => simp [hnone]

theorem readNumber_eq_error {s : String} (h : ¬∃ n < 2 ^ 64, Numeral (numberChars s) n) :
    readNumber s = .error (.fault (.notANumber (String.ofList (numberChars s)))) := by
  simp only [readNumber]
  split
  · next v hv => exact absurd ⟨v.toNat, v.toNat_lt, bind_word64?_eq_some_iff.1 hv⟩ h
  · rfl

/-! ## White space around a number -/

/-- The text consists of these characters and white space around them. -/
def BlankAround (core : List Char) (s : String) : Prop :=
  ∃ before after, s.toList = before ++ core ++ after ∧ (∀ c ∈ before, isBlank c = true) ∧
    ∀ c ∈ after, isBlank c = true

/-- The text has white space around these characters, and all that it has at its ends. -/
structure Trimmed (core : List Char) (s : String) : Prop where
  around : BlankAround core s
  first : ∀ c ∈ core.head?, isBlank c = false
  last : ∀ c ∈ core.getLast?, isBlank c = false

theorem trimmed_trimChars (s : String) : Trimmed (trimChars s.toList) s := by
  have hfront := List.takeWhile_append_dropWhile (p := isBlank) (l := s.toList)
  generalize hrest : s.toList.dropWhile isBlank = rest at hfront
  have hback : trimChars s.toList ++ (rest.reverse.takeWhile isBlank).reverse = rest := by
    rw [trimChars, hrest, ← List.reverse_append, List.takeWhile_append_dropWhile,
      List.reverse_reverse]
  have haround : BlankAround (trimChars s.toList) s := by
    refine ⟨s.toList.takeWhile isBlank, (rest.reverse.takeWhile isBlank).reverse, ?_,
      fun _ => List.mem_takeWhile_imp, fun c hc => List.mem_takeWhile_imp (List.mem_reverse.1 hc)⟩
    rw [List.append_assoc, hback, hfront]
  refine ⟨haround, ?_, ?_⟩
  · intro c hc
    have hhead : c ∈ (s.toList.dropWhile isBlank).head? := by
      rw [hrest, ← hback, List.head?_append, Option.mem_def.1 hc]
      rfl
    simpa [Option.mem_def.1 hhead] using List.head?_dropWhile_not isBlank s.toList
  · intro c hc
    rw [trimChars, List.getLast?_reverse] at hc
    simpa [Option.mem_def.1 hc] using
      List.head?_dropWhile_not isBlank (s.toList.dropWhile isBlank).reverse

theorem Trimmed.trimChars_eq {core : List Char} {s : String} :
    Trimmed core s → trimChars s.toList = core := by
  rintro ⟨⟨before, after, hs, hbefore, hafter⟩, hfirst, hlast⟩
  have hend : ((core ++ after).reverse.dropWhile isBlank).reverse = core := by
    rw [List.reverse_append, List.dropWhile_append_of_pos (by simpa using hafter),
      dropWhile_of_head (by simpa using hlast), List.reverse_reverse]
  rw [hs, trimChars, List.append_assoc, List.dropWhile_append_of_pos hbefore]
  cases core with
  | nil =>
    have hnone : after.dropWhile isBlank = [] := List.dropWhile_eq_nil_iff.2 hafter
    rw [List.nil_append, hnone]
    rfl
  | cons c core =>
    have hfront : (c :: core ++ after).dropWhile isBlank = c :: core ++ after :=
      dropWhile_of_head (by simpa using hfirst)
    rw [hfront, hend]

theorem Unsigned.not_blank {base n : Nat} (hbase : base ≤ 16) {cs : List Char} :
    Unsigned base cs n → ∀ c ∈ cs, isBlank c = false := by
  have hdigits : ∀ {ds}, Digits base ds n → ∀ c ∈ ds, isBlank c = false := by
    intro ds h c hc
    obtain ⟨d, hd⟩ := digit?_of_digitsFrom? ((digits_iff hbase).1 h).2 c hc
    exact (apart_of_isAsciiWordChar (isAsciiWordChar_of_digit? hd)).1
  rintro (h | ⟨ds, rfl, h⟩)
  · exact hdigits h
  · exact List.forall_mem_cons.2 ⟨by decide, hdigits h⟩

theorem Numeral.not_blank {cs : List Char} {n : Nat} :
    Numeral cs n → ∀ c ∈ cs, isBlank c = false := by
  rintro (h | ⟨hmark, h⟩)
  · exact h.not_blank (by decide)
  · next mark cs =>
    have hall : (hexMarks.all fun mark => mark.toList.all fun c => !isBlank c) = true := by decide
    have hfront : ∀ c ∈ mark.toList, isBlank c = false := by
      simpa using List.all_eq_true.1 hall mark hmark
    exact List.forall_mem_append.2 ⟨hfront, h.not_blank (by decide)⟩

/-! ## Spellings -/

/-- The ways in which a number is spelled: in decimal, and in hexadecimal behind either mark. -/
inductive Spelling (v : UInt64) : String → Prop
  | decimal : Spelling v v.toNat.repr
  | hexadecimal : Spelling v ("0x" ++ hexDigits v.toNat)
  /-- As generated code spells it. -/
  | constant : Spelling v (hexConstant v)

theorem unsigned_toDigits {base : Nat} (hone : 1 < base) (hbase : base ≤ 16) (n : Nat) :
    Unsigned base (Nat.toDigits base n) n :=
  Or.inl ((digits_iff hbase).2 ⟨Nat.toDigits_ne_nil, digitsFrom?_toDigits hone hbase n⟩)

theorem Spelling.numeral {v : UInt64} {spelling : String} :
    Spelling v spelling → Numeral spelling.toList v.toNat := by
  intro h
  have hhex : ∀ mark ∈ hexMarks, Numeral (mark ++ hexDigits v.toNat).toList v.toNat := by
    intro mark hmark
    rw [String.toList_append, hexDigits, String.toList_ofList]
    exact .hexadecimal hmark (unsigned_toDigits (by decide) (by decide) _)
  cases h with
  | decimal =>
    rw [Nat.repr, String.toList_ofList]
    exact .decimal (unsigned_toDigits (by decide) (by decide) _)
  | hexadecimal => exact hhex "0x" (by decide)
  | constant => exact hhex "'h" (by decide)

theorem Spelling.readNumber_eq {v : UInt64} {spelling s : String} {core : List Char} :
    Spelling v spelling → core.filter (· != '_') = spelling.toList → BlankAround core s →
      readNumber s = .ok v := by
  intro hspelling hcore hs
  -- An underscore is not white space, so nothing of the core is trimmed.
  have hblank : ∀ c ∈ core, isBlank c = false := by
    intro c hc
    by_cases hunder : c = '_'
    · subst hunder
      decide
    · refine hspelling.numeral.not_blank c (hcore ▸ List.mem_filter.2 ⟨hc, ?_⟩)
      simpa using hunder
  have htrimmed : Trimmed core s := ⟨hs, fun c hc => hblank c (List.mem_of_mem_head? hc),
    fun c hc => hblank c (List.mem_of_mem_getLast? hc)⟩
  rw [readNumber_eq_ok_iff, numberChars, htrimmed.trimChars_eq, hcore]
  exact hspelling.numeral

/-- **Numbers are read exactly.**  What counts of a text is what is left without the white space at
its ends and without underscores.  If that is a number of at most 64 bits, the number is read;
otherwise the text is refused as a fault of the description, however long it is.  In particular each
spelling of a number is read back, with underscores anywhere in it and white space around it. -/
theorem readNumber_exact (s : String) :
    (∃ core, (∀ core', Trimmed core' s ↔ core' = core) ∧
      numberChars s = core.filter (· != '_')) ∧
    (∀ v : UInt64, readNumber s = .ok v ↔ Numeral (numberChars s) v.toNat) ∧
    ((¬∃ n < 2 ^ 64, Numeral (numberChars s) n) →
      ∃ f, readNumber s = .error (.fault f) ∧ f = .notANumber (String.ofList (numberChars s)) ∧
        f.kind = .model) ∧
    ∀ (v : UInt64) (spelling : String) (core : List Char), Spelling v spelling →
      core.filter (· != '_') = spelling.toList → BlankAround core s → readNumber s = .ok v := by
  refine ⟨⟨trimChars s.toList, fun core' => ⟨?_, ?_⟩, rfl⟩, fun _ => readNumber_eq_ok_iff,
    fun h => ⟨_, readNumber_eq_error h, rfl, rfl⟩, fun _ _ _ h => h.readNumber_eq⟩
  · exact fun h => h.trimChars_eq.symm
  · rintro rfl
    exact trimmed_trimChars s

/-- A constant of the generated code with an underscore and white space is read back. -/
theorem readNumber_exact_deadBeef :
    readNumber "\t'hdead_beef \n" = .ok 0xdeadbeef :=
  (readNumber_exact _).2.2.2 0xdeadbeef _ "'hdead_beef".toList .constant (by decide)
    ⟨['\t'], [' ', '\n'], by decide, List.all_eq_true.1 (by decide), List.all_eq_true.1 (by decide)⟩

end RegLayer.Text
