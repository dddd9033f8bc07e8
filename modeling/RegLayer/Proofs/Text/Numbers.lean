/-
# `RegLayer.Proofs.Text.Numbers` — numbers that are written are read back

Numbers are written by dividing, so the last digit comes off first, and they are read from the
front with the value so far in hand.  The two meet in `digitsFrom?_append`: what was read of the
digits before the last one is the value with which the last one is read.

Digits are word characters, so neither the white space around a number nor an operator beside it
is taken for a part of it (`apart_of_isAsciiWordChar`).  That is what lets expressions of
generated code be read back.
-/
import RegLayer.Text.Number
import RegLayer.Text.WordChar

namespace RegLayer.Text

/-! ## White space -/

theorem dropWhile_of_head {α : Type} {p : α → Bool} {l : List α} :
    (∀ a ∈ l.head?, p a = false) → l.dropWhile p = l := by
  intro h
  cases l with
  | nil => rfl
  | cons a l => simp [h a rfl]

theorem trimChars_of_forall {cs : List Char} :
    (∀ c ∈ cs, isBlank c = false) → trimChars cs = cs := by
  intro h
  have hfirst : ∀ c ∈ cs.head?, isBlank c = false := fun c hc => h c (List.mem_of_mem_head? hc)
  have hlast : ∀ c ∈ cs.reverse.head?, isBlank c = false := by
    intro c hc
    exact h c (List.mem_reverse.1 (List.mem_of_mem_head? hc))
  rw [trimChars, dropWhile_of_head hfirst, dropWhile_of_head hlast, List.reverse_reverse]

theorem trimChars_cons_blank {b : Char} (cs : List Char) :
    isBlank b = true → trimChars (b :: cs) = trimChars cs := by
  intro hb
  simp [trimChars, hb]

theorem trimChars_concat_blank {b : Char} (cs : List Char) :
    isBlank b = true → trimChars (cs ++ [b]) = trimChars cs := by
  intro hb
  rw [trimChars, trimChars, List.dropWhile_append]
  by_cases hempty : cs.dropWhile isBlank = []
  · simp [hempty, hb]
  · have hcount : (cs.dropWhile isBlank).isEmpty = false := by simpa using hempty
    simp [hcount, hb]

theorem toNat_of_isAsciiWordChar {c : Char} :
    isAsciiWordChar c = true → 48 ≤ c.toNat ∧ c.toNat ≤ 122 := by
  intro hc
  have hword : ((c.isUpper || c.isLower || c.isDigit) || c == '_') = true := hc
  simp only [Bool.or_eq_true, beq_iff_eq] at hword
  rcases hword with ((hupper | hlower) | hdigit) | rfl
  · obtain ⟨hA, hZ⟩ : 65 ≤ c.toNat ∧ c.toNat ≤ 90 := of_decide_eq_true hupper
    omega
  · obtain ⟨ha, hz⟩ := Bool.and_eq_true_iff.1 hlower
    have hlow : 97 ≤ c.toNat := of_decide_eq_true ha
    have hhigh : c.toNat ≤ 122 := of_decide_eq_true hz
    omega
  · obtain ⟨h0, h9⟩ := Bool.and_eq_true_iff.1 hdigit
    have hlow : 48 ≤ c.toNat := of_decide_eq_true h0
    have hhigh : c.toNat ≤ 57 := of_decide_eq_true h9
    omega
  · decide

/-- A word character is neither white space nor an operator. -/
theorem apart_of_isAsciiWordChar {c : Char} :
    isAsciiWordChar c = true → isBlank c = false ∧ c ≠ '+' ∧ c ≠ '*' := by
  intro hc
  obtain ⟨hlow, hhigh⟩ := toNat_of_isAsciiWordChar hc
  refine ⟨?_, ?_, ?_⟩
  · simp only [isBlank, Bool.or_eq_false_iff, Bool.and_eq_false_iff, decide_eq_false_iff_not,
      beq_eq_false_iff_ne, ne_eq]
    omega
  · rintro rfl
    exact absurd hc (by decide)
  · rintro rfl
    exact absurd hc (by decide)

/-! ## One digit -/

theorem digitValue?_digitChar : ∀ d < 16, digitValue? (Nat.digitChar d) = some d := by
  decide

theorem digit?_digitChar {base d : Nat} (hbase : base ≤ 16) :
    d < base → digit? base (Nat.digitChar d) = some d := by
  intro hd
  rw [digit?, digitValue?_digitChar d (by omega)]
  simpa using hd

/-! ## All digits -/

/-- What stands in front is read first, and its value goes into the rest. -/
theorem digitsFrom?_append (base : Nat) (cs ds : List Char) :
    ∀ high, digitsFrom? base high (cs ++ ds) =
      (digitsFrom? base high cs).bind fun n => digitsFrom? base n ds := by
  induction cs with
  | nil => intro high; rfl
  | cons c cs ih =>
    intro high
    simp only [List.cons_append, digitsFrom?, Option.bind_assoc]
    exact congrArg _ (funext fun d => ih _)

/-- **Digits that are written are read back**, in every base that has its digits. -/
theorem digitsFrom?_toDigits {base : Nat} (hone : 1 < base) (hbase : base ≤ 16) :
    ∀ n, digitsFrom? base 0 (Nat.toDigits base n) = some n := by
  intro n
  induction n using Nat.strongRecOn with
  | ind n ih =>
    rw [Nat.toDigits_eq_if hone]
    by_cases hn : n < base
    · simp [hn, digitsFrom?, digit?_digitChar hbase hn]
    · have hlast : digit? base (Nat.digitChar (n % base)) = some (n % base) :=
        digit?_digitChar hbase (Nat.mod_lt n (by omega))
      have hfront : digitsFrom? base 0 (Nat.toDigits base (n / base)) = some (n / base) :=
        ih (n / base) (Nat.div_lt_self (by omega) hone)
      rw [if_neg hn, digitsFrom?_append, hfront]
      simp [digitsFrom?, hlast, Nat.div_add_mod']

theorem digit?_of_digitsFrom? {base n : Nat} {cs : List Char} :
    ∀ {high}, digitsFrom? base high cs = some n → ∀ c ∈ cs, ∃ d, digit? base c = some d := by
  induction cs with
  | nil => intro high _ c hc; cases hc
  | cons c cs ih =>
    intro high h
    obtain ⟨d, hd, hrest⟩ := Option.bind_eq_some_iff.1 h
    exact List.forall_mem_cons.2 ⟨⟨d, hd⟩, ih hrest⟩

theorem digit?_of_toDigits {base n : Nat} (hone : 1 < base) (hbase : base ≤ 16) {c : Char} :
    c ∈ Nat.toDigits base n → ∃ d, digit? base c = some d :=
  digit?_of_digitsFrom? (digitsFrom?_toDigits hone hbase n) c

theorem isAsciiWordChar_of_digit? {base d : Nat} {c : Char} :
    digit? base c = some d → isAsciiWordChar c = true := by
  intro h
  have hvalue := (Option.filter_eq_some_iff.1 h).1
  simp only [digitValue?] at hvalue
  have hword : isAsciiWordChar c = ((c.isUpper || c.isLower || c.isDigit) || c == '_') := rfl
  simp only [hword, Bool.or_eq_true]
  split at hvalue
  · next hdigit => exact Or.inl (Or.inr hdigit)
  · split at hvalue
    · next hlower => exact Or.inl (Or.inl (Or.inr hlower))
    · split at hvalue
      · next hupper => exact Or.inl (Or.inl (Or.inl hupper))
      · cases hvalue

end RegLayer.Text
