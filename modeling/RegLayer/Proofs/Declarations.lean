/-
# `RegLayer.Proofs.Declarations` — declarations and their labels

Readers meet labels one after the other and declare a type for each new one.  Declarations are
only ever added at the end, so a declaration keeps its label for good (`Grows.label?`), and a
label its first declaration (`Grows.first`), which is the one that it is met with every time
(`first_intern`).  So the first declaration of a label and the label tell each other.

The three facts are all that the readers of documents and of devices need of declarations.  They
hold of every list of labels, also of one in which a label comes twice; that is why it is always
the first declaration of a label that is spoken of.
-/
import RegLayer.Model.Forest

namespace RegLayer

namespace Declarations

variable {known later last : Declarations}

/-- The label of a declaration. -/
def label? (known : Declarations) (i : DeclId) : Option String :=
  known.labels[i.index]?

/-- The second declarations are the first and maybe more. -/
def Grows (known later : Declarations) : Prop :=
  known.labels.toList <+: later.labels.toList

theorem Grows.refl (known : Declarations) : Grows known known :=
  List.prefix_rfl

theorem Grows.trans (h₁ : Grows known later) (h₂ : Grows later last) : Grows known last :=
  List.IsPrefix.trans h₁ h₂

theorem lt_size_of_label? {i : DeclId} {label : String} (hi : known.label? i = some label) :
    i.index < known.labels.size :=
  (Array.getElem?_eq_some_iff.1 hi).1

theorem Grows.label?_eq (h : Grows known later) {i : DeclId} (hi : i.index < known.labels.size) :
    later.label? i = known.label? i := by
  unfold Declarations.label?
  obtain ⟨rest, hrest⟩ := h
  rw [← Array.getElem?_toList, ← Array.getElem?_toList, ← hrest, List.getElem?_append_left hi]

/-- Labels stay. -/
theorem Grows.label? (h : Grows known later) {i : DeclId} {label : String}
    (hi : known.label? i = some label) : later.label? i = some label :=
  (h.label?_eq (lt_size_of_label? hi)).trans hi

/-- The declaration has the label, and no declaration before it has. -/
def First (known : Declarations) (label : String) (i : DeclId) : Prop :=
  known.label? i = some label ∧
    ∀ j : DeclId, j.index < i.index → known.label? j ≠ some label

/-- Later declarations do not come before the first one. -/
theorem Grows.first (h : Grows known later) {i : DeclId} {label : String}
    (hi : known.First label i) : later.First label i := by
  have hlt := lt_size_of_label? hi.1
  refine ⟨h.label? hi.1, fun j hj => ?_⟩
  rw [h.label?_eq (Nat.lt_trans hj hlt)]
  exact hi.2 j hj

theorem First.unique {i j : DeclId} {label : String} (hi : known.First label i)
    (hj : known.First label j) : i = j := by
  rcases Nat.lt_trichotomy i.index j.index with hlt | heq | hgt
  · exact absurd hi.1 (hj.2 i hlt)
  · cases i
    exact congrArg DeclId.mk heq
  · exact absurd hj.1 (hi.2 j hgt)

theorem grows_intern (known : Declarations) (label : String) :
    Grows known (known.intern label).2 := by
  unfold intern
  split
  · exact .refl known
  · exact ⟨[label], Array.toList_push.symm⟩

/-- A label that was met has the declaration that was made when it was met first. -/
theorem first_intern (known : Declarations) (label : String) :
    (known.intern label).2.First label (known.intern label).1 := by
  unfold intern First Declarations.label?
  split
  · next i hi =>
    rw [Array.idxOf?_eq_map_finIdxOf?_val] at hi
    obtain ⟨j, hj, rfl⟩ := Option.map_eq_some_iff.1 hi
    obtain ⟨hlabel, hbefore⟩ := Array.finIdxOf?_eq_some_iff.1 hj
    refine ⟨Array.getElem?_eq_some_iff.2 ⟨j.isLt, hlabel⟩, fun k hk hsame => ?_⟩
    obtain ⟨hlt, hk'⟩ := Array.getElem?_eq_some_iff.1 hsame
    exact hbefore ⟨k.index, hlt⟩ hk hk'
  · next hnone =>
    refine ⟨Array.getElem?_push_size, fun k hk hsame => ?_⟩
    rw [Array.getElem?_push_lt hk] at hsame
    exact Array.idxOf?_eq_none_iff.1 hnone (Option.some.inj hsame ▸ Array.getElem_mem hk)

end Declarations

end RegLayer
