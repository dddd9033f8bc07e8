/-
# `RegLayer.Proofs.Outcome` — taking successes and failures apart

A computation that may fail is a chain of parts.  If the chain succeeds, so does every part
(`bind_eq_ok`, `mapM_eq_ok`), and a failure of the chain is the failure of one of them.
`FailsOnly` says in which ways a computation can fail, and it goes from the parts to the chain.

Most computations behind the generated classes can fail in one way only, by a number that leaves
its word (`OnlyOverflow`).  A sum of words is there exactly if the sum of their numbers fits
(`sum_eq_ok_iff`).

These lemmas are what other modules use instead of unfolding the monad.
-/
import Mathlib.Algebra.GroupWithZero.Nat
import Mathlib.Data.List.Forall2
import RegLayer.Checked
import RegLayer.Report

namespace RegLayer

variable {ε α β : Type}

/-! ## Successes -/

theorem bind_eq_ok {r : Except ε α} {f : α → Except ε β} {b : β} :
    r >>= f = .ok b ↔ ∃ a, r = .ok a ∧ f a = .ok b := by
  cases r with
  | error e => exact ⟨fun h => (nomatch h), fun ⟨_, h, _⟩ => (nomatch h)⟩
  | ok a =>
    constructor
    · intro h
      exact ⟨a, rfl, h⟩
    · rintro ⟨a', ha, h⟩
      cases ha
      exact h

theorem map_eq_ok {r : Except ε α} {f : α → β} {b : β} :
    f <$> r = .ok b ↔ ∃ a, r = .ok a ∧ f a = b := by
  cases r with
  | error e => exact ⟨fun h => (nomatch h), fun ⟨_, h, _⟩ => (nomatch h)⟩
  | ok a =>
    constructor
    · intro h
      exact ⟨a, rfl, Except.ok.inj h⟩
    · rintro ⟨a', ha, h⟩
      cases ha
      exact congrArg Except.ok h

theorem map_eq_error {r : Except ε α} {f : α → β} {e : ε} :
    f <$> r = .error e ↔ r = .error e := by
  cases r with
  | error e' =>
    constructor
    · intro h
      exact congrArg Except.error (Except.error.inj h)
    · intro h
      exact congrArg Except.error (Except.error.inj h)
  | ok a => exact ⟨fun h => (nomatch h), fun h => (nomatch h)⟩

theorem mapError_eq_ok {ε' : Type} {r : Except ε α} {f : ε → ε'} {a : α} :
    r.mapError f = .ok a ↔ r = .ok a := by
  cases r <;> simp [Except.mapError]

theorem pure_eq_ok {a b : α} : (pure a : Except ε α) = .ok b ↔ a = b := by
  simp [pure, Except.pure]

theorem isOk_iff {r : Except ε α} : r.isOk = true ↔ ∃ a, r = .ok a := by
  cases r with
  | error e => exact ⟨fun h => (nomatch h), fun ⟨_, h⟩ => (nomatch h)⟩
  | ok a => exact ⟨fun _ => ⟨a, rfl⟩, fun _ => rfl⟩

theorem mapM_eq_ok {f : α → Except ε β} {l : List α} {bs : List β} :
    l.mapM f = .ok bs ↔ List.Forall₂ (fun a b => f a = .ok b) l bs := by
  induction l generalizing bs with
  | nil =>
    rw [List.mapM_nil, List.forall₂_nil_left_iff]
    exact ⟨fun h => (Except.ok.inj h).symm, fun h => congrArg Except.ok h.symm⟩
  | cons a l ih =>
    rw [List.mapM_cons, bind_eq_ok]
    constructor
    · rintro ⟨b, hb, hrest⟩
      obtain ⟨bs', hbs, heq⟩ := bind_eq_ok.1 hrest
      obtain rfl := Except.ok.inj heq
      exact .cons hb (ih.1 hbs)
    · intro h
      cases h with
      | cons hb hrest => exact ⟨_, hb, bind_eq_ok.2 ⟨_, ih.2 hrest, rfl⟩⟩

theorem mapM_congr {f g : α → Except ε β} {l : List α} (h : ∀ a ∈ l, f a = g a) :
    l.mapM f = l.mapM g := by
  induction l with
  | nil => rfl
  | cons a l ih =>
    rw [List.mapM_cons, List.mapM_cons, h a List.mem_cons_self,
      ih fun c hc => h c (List.mem_cons_of_mem a hc)]

theorem forall₂_exists_left {R : α → β → Prop} {l : List α} {bs : List β}
    (h : List.Forall₂ R l bs) {b : β} (hb : b ∈ bs) : ∃ a ∈ l, R a b := by
  induction h with
  | nil => cases hb
  | @cons a c l bs hac _ ih =>
    rcases List.mem_cons.1 hb with rfl | hb
    · exact ⟨a, List.mem_cons_self, hac⟩
    · obtain ⟨a', ha', hr⟩ := ih hb
      exact ⟨a', List.mem_cons_of_mem a ha', hr⟩

theorem forall₂_getElem? {R : α → β → Prop} {l : List α} {bs : List β}
    (h : List.Forall₂ R l bs) {i : Nat} {a : α} (ha : l[i]? = some a) :
    ∃ b, bs[i]? = some b ∧ R a b := by
  obtain ⟨hlt, rfl⟩ := List.getElem?_eq_some_iff.1 ha
  have hlt' : i < bs.length := h.length_eq ▸ hlt
  exact ⟨bs[i], List.getElem?_eq_getElem hlt', h.get hlt hlt'⟩

theorem exists_of_mem_mapM {f : α → Except ε β} {l : List α} {bs : List β}
    (h : l.mapM f = .ok bs) {b : β} (hb : b ∈ bs) : ∃ a ∈ l, f a = .ok b :=
  forall₂_exists_left (mapM_eq_ok.1 h) hb

theorem mapM_eq_ok_of_imp {f g : α → Except ε β} {l : List α} {bs : List β}
    (hfg : ∀ a b, f a = .ok b → g a = .ok b) (h : l.mapM f = .ok bs) : l.mapM g = .ok bs :=
  mapM_eq_ok.2 ((mapM_eq_ok.1 h).imp hfg)

theorem exists_mapM_eq_ok {f : α → Except ε β} {l : List α} (hl : ∀ a ∈ l, ∃ b, f a = .ok b) :
    ∃ bs, l.mapM f = .ok bs := by
  induction l with
  | nil => exact ⟨[], rfl⟩
  | cons a l ih =>
    obtain ⟨b, hb⟩ := hl a List.mem_cons_self
    obtain ⟨bs, hbs⟩ := ih fun c hc => hl c (List.mem_cons_of_mem a hc)
    exact ⟨b :: bs, mapM_eq_ok.2 (List.Forall₂.cons hb (mapM_eq_ok.1 hbs))⟩

theorem outcome_map (f : α → β) (r : Report α) : (f <$> r).outcome = f <$> r.outcome := by
  obtain ⟨notices, outcome⟩ := r
  cases outcome <;> rfl

theorem mapM_eq_error {f : α → Except ε β} {l : List α} {e : ε} (h : l.mapM f = .error e) :
    ∃ before a after, l = before ++ a :: after ∧ (∀ c ∈ before, ∃ b, f c = .ok b) ∧
      f a = .error e := by
  induction l with
  | nil => cases h
  | cons a l ih =>
    rw [List.mapM_cons] at h
    cases ha : f a with
    | error e' =>
      rw [ha] at h
      obtain rfl := Except.error.inj h
      exact ⟨[], a, l, rfl, fun _ hc => absurd hc List.not_mem_nil, ha⟩
    | ok b =>
      rw [ha] at h
      cases hl : l.mapM f with
      | ok bs => rw [hl] at h; cases h
      | error e' =>
        rw [hl] at h
        obtain rfl := Except.error.inj h
        obtain ⟨before, c, after, rfl, hbefore, hc⟩ := ih hl
        exact ⟨a :: before, c, after, rfl, List.forall_mem_cons.2 ⟨⟨b, ha⟩, hbefore⟩, hc⟩

/-! ## Ways to fail -/

/-- The computation succeeds, or it fails in one of these ways. -/
def FailsOnly (P : ε → Prop) (r : Except ε α) : Prop :=
  ∀ e, r = .error e → P e

namespace FailsOnly

variable {P Q : ε → Prop} {r : Except ε α} {f : α → Except ε β}

theorem ok (a : α) : FailsOnly P (.ok a : Except ε α) :=
  fun _ h => nomatch h

theorem error {e : ε} (h : P e) : FailsOnly P (.error e : Except ε α) := by
  intro e' he
  exact Except.error.inj he ▸ h

theorem imp (hr : FailsOnly P r) (hPQ : ∀ e, P e → Q e) : FailsOnly Q r :=
  fun e he => hPQ e (hr e he)

theorem bind (hr : FailsOnly P r) (hf : ∀ a, r = .ok a → FailsOnly P (f a)) :
    FailsOnly P (r >>= f) := by
  cases r with
  | error e => exact fun e' h => hr e' (congrArg Except.error (Except.error.inj h))
  | ok a => exact hf a rfl

theorem map (hr : FailsOnly P r) (g : α → β) : FailsOnly P (g <$> r) := by
  cases r with
  | error e => exact fun e' h => hr e' (congrArg Except.error (Except.error.inj h))
  | ok a => exact ok (g a)

theorem mapM {l : List α} (hf : ∀ a ∈ l, FailsOnly P (f a)) : FailsOnly P (l.mapM f) := by
  intro e he
  obtain ⟨before, a, after, rfl, _, ha⟩ := mapM_eq_error he
  exact hf a (List.mem_append_right before List.mem_cons_self) e ha

end FailsOnly

/-- The failure is a fault of the design. -/
def Failure.OfModel : Failure → Prop
  | .fault f => f.kind = .model
  | .abort _ => False

theorem Failure.OfModel.exists_fault {e : Failure} (h : e.OfModel) :
    ∃ f, e = .fault f ∧ f.kind = .model := by
  cases e with
  | fault f => exact ⟨f, rfl, h⟩
  | abort a => exact h.elim

/-! ## Failures by overflow -/

/-- The computation succeeds, or a number leaves its word. -/
def OnlyOverflow (r : Except Failure α) : Prop :=
  ∀ e, r = .error e → e = .abort .overflow

theorem onlyOverflow_ok (a : α) : OnlyOverflow (.ok a : Except Failure α) :=
  FailsOnly.ok a

theorem OnlyOverflow.bind {r : Except Failure α} {f : α → Except Failure β}
    (hr : OnlyOverflow r) (hf : ∀ a, OnlyOverflow (f a)) : OnlyOverflow (r >>= f) :=
  FailsOnly.bind hr fun a _ => hf a

theorem OnlyOverflow.map {r : Except Failure α} (hr : OnlyOverflow r) (f : α → β) :
    OnlyOverflow (f <$> r) :=
  FailsOnly.map hr f

theorem OnlyOverflow.mapM {f : α → Except Failure β} {l : List α}
    (hf : ∀ a, OnlyOverflow (f a)) : OnlyOverflow (l.mapM f) :=
  FailsOnly.mapM fun a _ => hf a

theorem OnlyOverflow.foldlM {f : β → α → Except Failure β} (hf : ∀ b a, OnlyOverflow (f b a))
    (l : List α) (b : β) : OnlyOverflow (l.foldlM f b) := by
  induction l generalizing b with
  | nil => exact onlyOverflow_ok b
  | cons a l ih =>
    rw [List.foldlM_cons]
    exact (hf b a).bind ih

namespace Checked

theorem failsOnly_within {fits : Prop} [Decidable fits] (a : α) :
    FailsOnly (fun e => e = .abort .overflow ∧ ¬fits) (within fits a) := by
  unfold within
  split
  · exact .ok a
  · next hfits => exact .error ⟨rfl, hfits⟩

theorem onlyOverflow_within {fits : Prop} [Decidable fits] (a : α) :
    OnlyOverflow (within fits a) :=
  (failsOnly_within a).imp fun _ h => h.1

theorem onlyOverflow_product (factors : List UInt64) : OnlyOverflow (product factors) :=
  OnlyOverflow.foldlM (fun _ _ => onlyOverflow_within _) factors 1

theorem onlyOverflow_sum (terms : List UInt64) : OnlyOverflow (sum terms) :=
  OnlyOverflow.foldlM (fun _ _ => onlyOverflow_within _) terms 0

/-! ## Sums -/

theorem foldlM_add64_eq_ok_iff {terms : List UInt64} {start s : UInt64} :
    terms.foldlM add64 start = .ok s ↔
      s.toNat = start.toNat + (terms.map UInt64.toNat).sum := by
  induction terms generalizing start with
  | nil =>
    rw [List.foldlM_nil, pure_eq_ok, List.map_nil, List.sum_nil, Nat.add_zero, UInt64.toNat_inj]
    exact eq_comm
  | cons t terms ih =>
    rw [List.foldlM_cons, bind_eq_ok, List.map_cons, List.sum_cons, ← Nat.add_assoc]
    constructor
    · rintro ⟨next, hnext, hrest⟩
      rw [ih.1 hrest, add64_eq_ok_iff.1 hnext]
    · intro hs
      -- A part of a sum that has 64 bits has 64 bits, too.
      have hfits : start.toNat + t.toNat < UInt64.size := by
        have hlt : s.toNat < UInt64.size := s.toNat_lt
        omega
      have hnext : add64 start t = .ok (start + t) := within_eq_ok_iff.2 ⟨hfits, rfl⟩
      refine ⟨start + t, hnext, ih.2 ?_⟩
      rw [hs, add64_eq_ok_iff.1 hnext]

/-- **A checked sum** is the sum of the numbers, if that has 64 bits. -/
theorem sum_eq_ok_iff {terms : List UInt64} {s : UInt64} :
    sum terms = .ok s ↔ s.toNat = (terms.map UInt64.toNat).sum := by
  have hzero : (0 : UInt64).toNat = 0 := rfl
  rw [sum, foldlM_add64_eq_ok_iff, hzero, Nat.zero_add]

end Checked

end RegLayer
