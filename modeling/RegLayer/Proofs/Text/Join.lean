/-
# `RegLayer.Proofs.Text.Join` — taking joined texts apart

Paths, class names and the keys of declarations are texts joined by a separator.  The texts are
free, so one of them may hold the separator, or end in characters that make a separator with those
behind it; then two different lists can be joined to one text.

`Plain` names the texts in which no separator begins, also not one that is finished by the
separator behind the text; it can be decided.  Lists of plain texts are told apart by what they
are joined to (`join_inj`), because the first separator in a joined text is the one behind the
first piece (`Plain.append_inj`).  Where the separator is a single character, plain means that the
text does not hold it (`plain_of_not_mem`).
-/
import RegLayer.Text.Pieces

namespace RegLayer.Text

/-! ## Where a pattern stands -/

theorem occurs_iff_isInfix {pat cs : List Char} : occurs pat cs = true ↔ pat <:+: cs := by
  induction cs with
  | nil =>
    rw [occurs, List.isEmpty_iff, List.infix_nil]
  | cons c cs ih =>
    rw [occurs, Bool.or_eq_true, ih, List.isPrefixOf_iff_prefix, List.infix_cons_iff]

/-- No separator begins inside the piece, not even one that goes on in the separator behind it. -/
def Plain (sep piece : String) : Prop :=
  occurs sep.toList (piece.toList ++ sep.toList.dropLast) = false

instance (sep piece : String) : Decidable (Plain sep piece) :=
  inferInstanceAs (Decidable (_ = _))

variable {sep p q : String}

theorem plain_iff : Plain sep p ↔ ¬sep.toList <:+: p.toList ++ sep.toList.dropLast := by
  unfold Plain
  rw [← occurs_iff_isInfix, Bool.not_eq_true]

theorem Plain.not_isInfix (hp : Plain sep p) : ¬sep.toList <:+: p.toList :=
  fun h => plain_iff.1 hp (h.trans (List.prefix_append _ _).isInfix)

theorem Plain.length_pos (hp : Plain sep p) : 0 < sep.toList.length := by
  refine List.length_pos_iff.2 fun h => hp.not_isInfix ?_
  rw [h]
  exact List.nil_infix

/-! ## The first piece -/

theorem Plain.length_le {cs r s : List Char} (hq : Plain sep q)
    (h : cs ++ (sep.toList ++ r) = q.toList ++ (sep.toList ++ s)) :
    q.toList.length ≤ cs.length := by
  refine Nat.not_lt.1 fun hlt => plain_iff.1 hq ?_
  -- The separator behind `cs` ends before the last character of the one behind `q`.
  have hfront : cs ++ sep.toList <+: cs ++ (sep.toList ++ r) := by
    rw [← List.append_assoc]
    exact List.prefix_append _ _
  have hback : q.toList ++ sep.toList.dropLast <+: cs ++ (sep.toList ++ r) := by
    rw [h, List.prefix_append_right_inj]
    exact (List.dropLast_prefix _).trans (List.prefix_append _ _)
  have hlen : (cs ++ sep.toList).length ≤ (q.toList ++ sep.toList.dropLast).length := by
    rw [List.length_append, List.length_append, List.length_dropLast]
    have := hq.length_pos
    omega
  have hpre := List.prefix_of_prefix_length_le hfront hback hlen
  exact (List.suffix_append _ _).isInfix.trans hpre.isInfix

/-- Two plain pieces before a separator are equal if the texts are, and so is what follows. -/
theorem Plain.append_inj {r s : String} (hp : Plain sep p) (hq : Plain sep q)
    (h : p ++ sep ++ r = q ++ sep ++ s) : p = q ∧ r = s := by
  have hchars : p.toList ++ (sep.toList ++ r.toList) = q.toList ++ (sep.toList ++ s.toList) := by
    simpa using congrArg String.toList h
  -- If one piece were shorter, a separator would begin inside the other.
  have hlen : p.toList.length = q.toList.length :=
    Nat.le_antisymm (hp.length_le hchars.symm) (hq.length_le hchars)
  obtain ⟨hpq, hrest⟩ := List.append_inj hchars hlen
  exact ⟨String.toList_inj.1 hpq, String.toList_inj.1 (List.append_cancel_left hrest)⟩

theorem Plain.ne_append {r s : String} (hp : Plain sep p) : p ≠ r ++ sep ++ s := by
  rintro rfl
  refine hp.not_isInfix ?_
  rw [String.toList_append, String.toList_append]
  exact List.infix_append _ _ _

/-! ## All pieces -/

theorem join_append_cons (sep p q : String) (rest : List String) :
    join sep ((p ++ sep ++ q) :: rest) = join sep (p :: q :: rest) := by
  cases rest with
  | nil => rw [join_singleton, join_cons_cons, join_singleton]
  | cons r rest => simp only [join_cons_cons, String.append_assoc]

theorem join_append {ps qs : List String} (hps : ps ≠ []) (hqs : qs ≠ []) :
    join sep (ps ++ qs) = join sep ps ++ sep ++ join sep qs := by
  induction ps with
  | nil => exact absurd rfl hps
  | cons p ps ih =>
    cases ps with
    | nil =>
      obtain ⟨q, qs, rfl⟩ := List.exists_cons_of_ne_nil hqs
      rw [List.singleton_append, join_cons_cons, join_singleton]
    | cons p' ps =>
      have hrest := ih (List.cons_ne_nil p' ps)
      rw [List.cons_append] at hrest ⊢
      rw [List.cons_append, join_cons_cons, hrest, join_cons_cons]
      simp only [String.append_assoc]

theorem join_cons_inj {ps qs : List String} (hp : Plain sep p) (hq : Plain sep q)
    (h : join sep (p :: ps) = join sep (q :: qs)) :
    p = q ∧ join sep ps = join sep qs ∧ (ps = [] ↔ qs = []) := by
  cases ps with
  | nil =>
    cases qs with
    | nil => exact ⟨by simpa using h, rfl, Iff.rfl⟩
    | cons q' qs =>
      rw [join_singleton, join_cons_cons] at h
      exact absurd h hp.ne_append
  | cons p' ps =>
    cases qs with
    | nil =>
      rw [join_singleton, join_cons_cons] at h
      exact absurd h.symm hq.ne_append
    | cons q' qs =>
      rw [join_cons_cons, join_cons_cons] at h
      obtain ⟨hhead, hrest⟩ := hp.append_inj hq h
      exact ⟨hhead, hrest, by simp⟩

/-- **Plain pieces can be told apart**: lists of plain pieces that are joined to one text are the
same list. -/
theorem join_inj {ps qs : List String} (hp : ∀ p ∈ ps, Plain sep p) (hq : ∀ q ∈ qs, Plain sep q)
    (hps : ps ≠ []) (hqs : qs ≠ []) (h : join sep ps = join sep qs) : ps = qs := by
  induction ps generalizing qs with
  | nil => exact absurd rfl hps
  | cons p ps ih =>
    obtain ⟨q, qs, rfl⟩ := List.exists_cons_of_ne_nil hqs
    obtain ⟨rfl, hrest, hempty⟩ :=
      join_cons_inj (hp p List.mem_cons_self) (hq q List.mem_cons_self) h
    by_cases hnil : ps = []
    · rw [hnil, hempty.1 hnil]
    · rw [ih (fun r hr => hp r (List.mem_cons_of_mem _ hr))
        (fun r hr => hq r (List.mem_cons_of_mem _ hr)) hnil (mt hempty.2 hnil) hrest]

/-- Where the separator is a character twice, a piece without the character is plain. -/
theorem plain_of_not_mem {c : Char} (hsep : sep.toList = [c, c]) (h : c ∉ p.toList) :
    Plain sep p := by
  rw [plain_iff, hsep]
  intro hinfix
  have htwice := hinfix.sublist.count_le c
  rw [List.count_append, List.count_eq_zero.2 h] at htwice
  simp at htwice

/-- Neither a doubled line inside a name nor a single one at its end is plain. -/
example : (["uart0", "tx_fifo", "_reserved", "a__b", "a_"].map fun s => decide (Plain "__" s)) =
    [true, true, true, false, false] := by
  decide +kernel

end RegLayer.Text
