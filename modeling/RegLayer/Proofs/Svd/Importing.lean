/-
# `RegLayer.Proofs.Svd.Importing` — what an import leaves behind

An import meets declarations as it goes, and may fail at every part.  `Gives` takes its successes
apart: a chain gives what its last part gives, from the declarations that the parts before it left
(`gives_bind`).  What is noticed on the way is left out.

The key under which a type is declared is the label of its declaration, and the first of that
label (`Declared`), so one key gives one type, whenever it is declared (`Declared.unique`).
-/
import RegLayer.Proofs.Declarations
import RegLayer.Proofs.Outcome
import RegLayer.Svd.Import

namespace RegLayer

namespace Svd

open Declarations

variable {α β : Type} {known later : Declarations}

/-! ## Steps of an import -/

/-- The part of an import succeeds with this result, and leaves these declarations. -/
def Gives (x : Importing α) (known : Declarations) (a : α) (later : Declarations) : Prop :=
  (x.run known).outcome = .ok (a, later)

theorem gives_pure {a b : α} : Gives (pure a) known b later ↔ a = b ∧ known = later := by
  unfold Gives
  rw [StateT.run_pure, Report.outcome_pure, Except.ok.injEq, Prod.mk.injEq]

theorem gives_bind {x : Importing α} {f : α → Importing β} {b : β} :
    Gives (x >>= f) known b later ↔
      ∃ a mid, Gives x known a mid ∧ Gives (f a) mid b later := by
  unfold Gives
  rw [StateT.run_bind, Report.outcome_bind, bind_eq_ok]
  exact ⟨fun ⟨⟨a, mid⟩, h⟩ => ⟨a, mid, h⟩, fun ⟨a, mid, h⟩ => ⟨(a, mid), h⟩⟩

theorem gives_lift {r : Report α} {a : α} :
    Gives (liftM r) known a later ↔ r.outcome = .ok a ∧ known = later := by
  unfold Gives
  show (r >>= fun a => pure (a, known)).outcome = _ ↔ _
  rw [Report.outcome_bind, bind_eq_ok]
  constructor
  · rintro ⟨b, hb, h⟩
    cases h
    exact ⟨hb, rfl⟩
  · rintro ⟨hb, rfl⟩
    exact ⟨a, hb, rfl⟩

theorem gives_mapM {f : α → Importing β} {l : List α} {bs : List β}
    (hf : ∀ a ∈ l, ∀ before b after, Gives (f a) before b after → Grows before after)
    (h : Gives (l.mapM f) known bs later) : Grows known later ∧
      List.Forall₂ (fun a b => ∃ before after, Gives (f a) before b after ∧ Grows after later)
        l bs := by
  induction l generalizing known bs with
  | nil =>
    rw [List.mapM_nil] at h
    obtain ⟨rfl, rfl⟩ := gives_pure.1 h
    exact ⟨.refl known, .nil⟩
  | cons a l ih =>
    rw [List.mapM_cons] at h
    obtain ⟨b, mid, hb, h⟩ := gives_bind.1 h
    obtain ⟨cs, end_, hcs, h⟩ := gives_bind.1 h
    obtain ⟨rfl, rfl⟩ := gives_pure.1 h
    obtain ⟨hgrows, hrest⟩ := ih (fun c hc => hf c (List.mem_cons_of_mem a hc)) hcs
    exact ⟨(hf a List.mem_cons_self known b mid hb).trans hgrows,
      .cons ⟨known, mid, hb, hgrows⟩ hrest⟩

/-! ## Declared types -/

/-- The type was declared under this key: it has the key, and its declaration is the first one with
the key as its label. -/
structure Declared (known : Declarations) (key : String) (scope : TypeScope)
    (later : Declarations) : Prop where
  key_eq : scope.key = key
  grows : Grows known later
  first : later.First key scope.decl

theorem Declared.label {key : String} {scope : TypeScope} (h : Declared known key scope later) :
    later.label? scope.decl = some key :=
  h.first.1

/-- A key settles the type, whenever it was declared. -/
theorem Declared.unique {known' later' last : Declarations} {key : String}
    {scope scope' : TypeScope} (h : Declared known key scope later)
    (h' : Declared known' key scope' later') (hlast : Grows later last)
    (hlast' : Grows later' last) : scope = scope' := by
  have hdecl : scope.decl = scope'.decl := (hlast.first h.first).unique (hlast'.first h'.first)
  have hkey : scope.key = scope'.key := h.key_eq.trans h'.key_eq.symm
  cases scope
  cases scope'
  cases hdecl
  cases hkey
  rfl

theorem declared_of_declare {key : String} {scope : TypeScope}
    (h : Gives (declare key) known scope later) : Declared known key scope later := by
  have heq : ((⟨(known.intern key).1, key⟩ : TypeScope), (known.intern key).2) = (scope, later) :=
    Except.ok.inj h
  obtain ⟨rfl, rfl⟩ := Prod.mk.inj heq
  exact ⟨rfl, grows_intern known key, first_intern known key⟩

theorem declared_of_cluster {c : Cluster} {around : Surroundings} {scope : TypeScope}
    (h : Gives (c.declare around) known scope later) :
    Declared known (around.scope.key ++ "::" ++ bareName c.name) scope later := by
  unfold Cluster.declare at h
  obtain ⟨inner, mid, hinner, h⟩ := gives_bind.1 h
  -- That the cluster is an array is noticed, and makes no difference to its type.
  have hend : inner = scope ∧ mid = later := by
    split at h
    · obtain ⟨_, _, hnote, h⟩ := gives_bind.1 h
      obtain ⟨_, rfl⟩ := gives_lift.1 hnote
      exact gives_pure.1 h
    · exact gives_pure.1 h
  obtain ⟨rfl, rfl⟩ := hend
  exact declared_of_declare hinner

end Svd

end RegLayer
