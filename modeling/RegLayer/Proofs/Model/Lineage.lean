/-
# `RegLayer.Proofs.Model.Lineage` — climbing from a node

The nodes above a node are met one after the other by going from parent to parent.  Handles fall
on the way up, so the climb ends (`induct_parent` is the induction that goes with it), no node is
met twice, and of two nodes that are met the older one is above the other (`mem_lineage_of_le`).

Most questions about a node do not climb to the top but stop before some node (`climb`); what lies
above the stop is then the same for all who climb to it (`lineage_eq_climb_append`).  Paths,
addresses and names are all made from a climb, and this one equation takes them apart.

Every model is covered.  What is used of one is `parent_lt`, which it carries with it; that
children and parents agree is not needed for climbing.
-/
import Mathlib.Data.List.Chain
import Mathlib.Data.List.TakeWhile
import RegLayer.Model.Path

namespace RegLayer.Model

variable {m : Model} {a b h p : Nat} {stop : Option Nat}

/-- Induction up a model: what holds of the nodes without a parent, and of a node whenever it holds
of its parent, holds of every node. -/
theorem induct_parent {P : Nat → Prop} (m : Model) (root : ∀ h, m.parent h = none → P h)
    (child : ∀ h p, m.parent h = some p → P p → P h) (h : Nat) : P h := by
  induction h using Nat.strongRecOn with
  | ind h ih =>
    cases hp : m.parent h with
    | none => exact root h hp
    | some p => exact child h p hp (ih p (parent_lt hp))

/-! ## Ancestors and lineages -/

theorem ancestors_of_parent (hp : m.parent h = some p) : m.ancestors h = m.lineage p := by
  rw [ancestors_eq, hp]
  rfl

theorem ancestors_of_root (hp : m.parent h = none) : m.ancestors h = [] := by
  rw [ancestors_eq, hp]
  rfl

theorem lineage_of_parent (hp : m.parent h = some p) : m.lineage h = h :: m.lineage p :=
  congrArg (h :: ·) (ancestors_of_parent hp)

theorem lineage_of_root (hp : m.parent h = none) : m.lineage h = [h] :=
  congrArg (h :: ·) (ancestors_of_root hp)

theorem mem_lineage_self (h : Nat) : h ∈ m.lineage h :=
  List.mem_cons_self

theorem mem_lineage_iff : a ∈ m.lineage h ↔ a = h ∨ a ∈ m.ancestors h :=
  List.mem_cons

theorem mem_ancestors_of_parent (hp : m.parent h = some p) : p ∈ m.ancestors h := by
  rw [ancestors_of_parent hp]
  exact mem_lineage_self p

theorem mem_lineage_of_parent (hp : m.parent h = some p) :
    a ∈ m.lineage h ↔ a = h ∨ a ∈ m.lineage p := by
  rw [lineage_of_parent hp, List.mem_cons]

theorem le_of_mem_lineage (ha : a ∈ m.lineage h) : a ≤ h := by
  induction h using m.induct_parent with
  | root h hp =>
    rw [lineage_of_root hp, List.mem_singleton] at ha
    omega
  | child h p hp ih =>
    have hlt : p < h := parent_lt hp
    rcases (mem_lineage_of_parent hp).1 ha with rfl | ha
    · exact Nat.le_refl _
    · have := ih ha
      omega

theorem exists_parent_of_mem_ancestors (ha : a ∈ m.ancestors h) :
    ∃ p, m.parent h = some p ∧ a ∈ m.lineage p := by
  cases hp : m.parent h with
  | none =>
    rw [ancestors_of_root hp] at ha
    cases ha
  | some p =>
    rw [ancestors_of_parent hp] at ha
    exact ⟨p, rfl, ha⟩

theorem lt_of_mem_ancestors (ha : a ∈ m.ancestors h) : a < h := by
  obtain ⟨p, hp, hap⟩ := exists_parent_of_mem_ancestors ha
  have h₁ : a ≤ p := le_of_mem_lineage hap
  have h₂ : p < h := parent_lt hp
  omega

theorem lt_size_of_mem_ancestors (hh : h < m.size) (ha : a ∈ m.ancestors h) : a < m.size :=
  Nat.lt_trans (lt_of_mem_ancestors ha) hh

theorem mem_lineage_trans {c : Nat} (hb : b ∈ m.lineage a) (hc : c ∈ m.lineage b) :
    c ∈ m.lineage a := by
  induction a using m.induct_parent with
  | root a hp =>
    rw [lineage_of_root hp, List.mem_singleton] at hb
    exact hb ▸ hc
  | child a p hp ih =>
    rcases (mem_lineage_of_parent hp).1 hb with rfl | hb
    · exact hc
    · exact (mem_lineage_of_parent hp).2 (Or.inr (ih hb))

theorem mem_ancestors_of_mem_lineage (ha : a ∈ m.lineage b) (hb : b ∈ m.ancestors h) :
    a ∈ m.ancestors h := by
  have hline : a ∈ m.lineage h := mem_lineage_trans (List.mem_cons_of_mem h hb) ha
  rcases mem_lineage_iff.1 hline with rfl | h'
  · have h₁ : a ≤ b := le_of_mem_lineage ha
    have h₂ : b < a := lt_of_mem_ancestors hb
    omega
  · exact h'

theorem ancestors_subset (hb : b ∈ m.lineage h) : m.ancestors b ⊆ m.ancestors h := by
  intro a ha
  rcases mem_lineage_iff.1 hb with rfl | hb
  · exact ha
  · exact mem_ancestors_of_mem_lineage (List.mem_cons_of_mem b ha) hb

/-- Of two nodes above a third the older one is above the other. -/
theorem mem_lineage_of_le (ha : a ∈ m.lineage h) (hb : b ∈ m.lineage h) (hab : a ≤ b) :
    a ∈ m.lineage b := by
  induction h using m.induct_parent with
  | root h hp =>
    rw [lineage_of_root hp, List.mem_singleton] at ha hb
    subst ha hb
    exact mem_lineage_self _
  | child h p hp ih =>
    have hlt : p < h := parent_lt hp
    rcases (mem_lineage_of_parent hp).1 hb with rfl | hb
    · exact ha
    · have hbp : b ≤ p := le_of_mem_lineage hb
      rcases (mem_lineage_of_parent hp).1 ha with rfl | ha
      · omega
      · exact ih ha hb

theorem ancestors_trichotomy (hb : b ∈ m.ancestors h) (ha : a ∈ m.ancestors h) :
    a ∈ m.ancestors b ∨ b = a ∨ b ∈ m.ancestors a := by
  have hbl : b ∈ m.lineage h := List.mem_cons_of_mem h hb
  have hal : a ∈ m.lineage h := List.mem_cons_of_mem h ha
  rcases Nat.le_total a b with hle | hle
  · rcases mem_lineage_iff.1 (mem_lineage_of_le hal hbl hle) with rfl | h'
    · exact Or.inr (Or.inl rfl)
    · exact Or.inl h'
  · rcases mem_lineage_iff.1 (mem_lineage_of_le hbl hal hle) with rfl | h'
    · exact Or.inr (Or.inl rfl)
    · exact Or.inr (Or.inr h')

theorem eq_of_siblings (ha : m.parent a = some p) (hb : m.parent b = some p)
    (hah : a ∈ m.lineage h) (hbh : b ∈ m.lineage h) : a = b := by
  have key : ∀ {a b : Nat}, m.parent a = some p → m.parent b = some p →
      a ∈ m.lineage h → b ∈ m.lineage h → a ≤ b → a = b := by
    intro a b ha hb hah hbh hab
    rcases (mem_lineage_of_parent hb).1 (mem_lineage_of_le hah hbh hab) with hab | hap
    · exact hab
    · have h₁ : a ≤ p := le_of_mem_lineage hap
      have h₂ : p < a := parent_lt ha
      omega
  rcases Nat.le_total a b with hab | hba
  · exact key ha hb hah hbh hab
  · exact (key hb ha hbh hah hba).symm

theorem isChain_lineage (m : Model) (h : Nat) :
    (m.lineage h).IsChain fun c p => m.parent c = some p := by
  induction h using m.induct_parent with
  | root h hp =>
    rw [lineage_of_root hp]
    exact .singleton h
  | child h p hp ih =>
    rw [lineage_of_parent hp]
    exact .cons_cons hp ih

theorem exists_getLast?_lineage (m : Model) (h : Nat) :
    ∃ r, (m.lineage h).getLast? = some r ∧ m.parent r = none := by
  induction h using m.induct_parent with
  | root h hp =>
    rw [lineage_of_root hp]
    exact ⟨h, rfl, hp⟩
  | child h p hp ih =>
    obtain ⟨r, hlast, hr⟩ := ih
    rw [lineage_of_parent hp, List.getLast?_cons, hlast]
    exact ⟨r, rfl, hr⟩

theorem ancestors_congr {m' : Model} (hsame : ∀ b ∈ m.lineage h, m'.parent b = m.parent b) :
    m'.ancestors h = m.ancestors h := by
  induction h using m.induct_parent with
  | root h hp =>
    have hp' : m'.parent h = none := (hsame h (mem_lineage_self h)).trans hp
    rw [ancestors_of_root hp, ancestors_of_root hp']
  | child h p hp ih =>
    have hp' : m'.parent h = some p := (hsame h (mem_lineage_self h)).trans hp
    rw [ancestors_of_parent hp, ancestors_of_parent hp', lineage, lineage, ih]
    intro b hb
    exact hsame b ((mem_lineage_of_parent hp).2 (Or.inr hb))

theorem length_ancestors_le (m : Model) (h : Nat) : (m.ancestors h).length ≤ h := by
  induction h using m.induct_parent with
  | root h hp =>
    rw [ancestors_of_root hp]
    exact Nat.zero_le h
  | child h p hp ih =>
    have hlt : p < h := parent_lt hp
    rw [ancestors_of_parent hp, lineage, List.length_cons]
    omega

/-! ## Climbs with a stop -/

/-- The nodes from a node upwards that come before the stop, and all of them if the climb does not
come to the stop. -/
def climb (m : Model) (h : Nat) (stop : Option Nat) : List Nat :=
  h :: (m.ancestors h).takeWhile fun a => some a != stop

theorem relPath_eq_join_climb (h : Nat) (stop : Option Nat) (sep : String) :
    m.relPath h stop sep = Text.join sep ((m.climb h stop).map m.name).reverse :=
  rfl

theorem climb_of_root (hp : m.parent h = none) : m.climb h stop = [h] := by
  unfold climb
  rw [ancestors_of_root hp]
  rfl

theorem climb_of_parent (hp : m.parent h = some p) :
    m.climb h stop = h :: if some p = stop then [] else m.climb p stop := by
  unfold climb
  rw [ancestors_of_parent hp, lineage, List.takeWhile_cons]
  by_cases hstop : some p = stop
  · rw [if_pos hstop, if_neg (by simp [hstop])]
  · rw [if_neg hstop, if_pos (by simpa using hstop)]

theorem climb_of_not_mem (hstop : ∀ a ∈ m.ancestors h, some a ≠ stop) :
    m.climb h stop = m.lineage h := by
  have hall : (m.ancestors h).takeWhile (fun a => some a != stop) = m.ancestors h := by
    refine List.takeWhile_eq_self_iff.2 fun a ha => ?_
    exact bne_iff_ne.2 (hstop a ha)
  exact congrArg (h :: ·) hall

theorem climb_none (m : Model) (h : Nat) : m.climb h none = m.lineage h :=
  climb_of_not_mem fun a _ => Option.some_ne_none a

theorem mem_lineage_of_mem_climb (hb : b ∈ m.climb h stop) : b ∈ m.lineage h :=
  List.cons_subset_cons h (List.takeWhile_prefix _).subset hb

/-- **A climb to an ancestor, and then the ancestor's own lineage**, are all that is above a
node. -/
theorem lineage_eq_climb_append (ha : a ∈ m.ancestors h) :
    m.lineage h = m.climb h (some a) ++ m.lineage a := by
  induction h using m.induct_parent with
  | root h hp =>
    rw [ancestors_of_root hp] at ha
    cases ha
  | child h p hp ih =>
    rw [lineage_of_parent hp, climb_of_parent hp]
    by_cases hpa : p = a
    · rw [if_pos (congrArg some hpa), hpa]
      rfl
    · rw [ancestors_of_parent hp] at ha
      have hap : a ∈ m.ancestors p := (mem_lineage_iff.1 ha).resolve_left (Ne.symm hpa)
      rw [if_neg fun h => hpa (Option.some.inj h), ih hap, List.cons_append]

theorem mem_ancestors_of_mem_climb (ha : a ∈ m.ancestors h) (hb : b ∈ m.climb h (some a)) :
    a ∈ m.ancestors b := by
  induction h using m.induct_parent with
  | root h hp =>
    rw [ancestors_of_root hp] at ha
    cases ha
  | child h p hp ih =>
    rw [climb_of_parent hp] at hb
    rcases List.mem_cons.1 hb with rfl | hb
    · exact ha
    · by_cases hpa : p = a
      · rw [if_pos (congrArg some hpa)] at hb
        cases hb
      · rw [if_neg fun h => hpa (Option.some.inj h)] at hb
        rw [ancestors_of_parent hp] at ha
        exact ih ((mem_lineage_iff.1 ha).resolve_left (Ne.symm hpa)) hb

theorem filter_lineage_eq_climb (ha : a ∈ m.ancestors h) :
    (m.lineage h).filter (fun b => a ∈ m.ancestors b) = m.climb h (some a) := by
  have hbelow : ∀ b ∈ m.climb h (some a), decide (a ∈ m.ancestors b) = true :=
    fun b hb => decide_eq_true (mem_ancestors_of_mem_climb ha hb)
  have habove : ∀ b ∈ m.lineage a, ¬decide (a ∈ m.ancestors b) = true := by
    intro b hb hab
    have h₁ : b ≤ a := le_of_mem_lineage hb
    have h₂ : a < b := lt_of_mem_ancestors (of_decide_eq_true hab)
    omega
  rw [lineage_eq_climb_append ha, List.filter_append, List.filter_eq_self.2 hbelow,
    List.filter_eq_nil_iff.2 habove, List.append_nil]

end RegLayer.Model
