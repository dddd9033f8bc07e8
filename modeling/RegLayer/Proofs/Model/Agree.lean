/-
# `RegLayer.Proofs.Model.Agree` — trees that agree place by place

A description, the components read from it and the part of a model below a node are trees of one
shape, and what stands at a place in one of them decides what stands there in the others.
`Tree.Agree` says so for any relation between the labels.

It goes from trees to what stands inside them (`Agree.exists_of_subtree`) and to their orders
(`Agree.forall₂_preorder`), and what it says of parts of the trees it says of their places
(`Agree.imp_parts`); and it goes from the components that are read back from a model to the
handles of these components (`agree_subtree`).  The induction is always the one over a tree and a
list of trees, and it is done here so that the readers need not do it.
-/
import RegLayer.Proofs.Model.Planted
import RegLayer.Proofs.Outcome

namespace RegLayer

namespace Tree

variable {α β γ : Type} {R S : α → β → Prop}

/-- Trees of one shape, with related labels at every place. -/
inductive Agree (R : α → β → Prop) : Tree α → Tree β → Prop
  | node {a : α} {b : β} {ts : List (Tree α)} {us : List (Tree β)} :
      R a b → List.Forall₂ (Agree R) ts us → Agree R (.node a ts) (.node b us)

theorem agree_node_iff {a : α} {b : β} {ts : List (Tree α)} {us : List (Tree β)} :
    Agree R (.node a ts) (.node b us) ↔ R a b ∧ List.Forall₂ (Agree R) ts us := by
  constructor
  · intro h
    cases h with
    | node hab hts => exact ⟨hab, hts⟩
  · intro ⟨hab, hts⟩
    exact .node hab hts

theorem Agree.label : ∀ {t : Tree α} {u : Tree β}, Agree R t u → R t.label u.label
  | .node _ _, .node _ _, h => (agree_node_iff.1 h).1

theorem Agree.children : ∀ {t : Tree α} {u : Tree β}, Agree R t u →
    List.Forall₂ (Agree R) t.children u.children
  | .node _ _, .node _ _, h => (agree_node_iff.1 h).2

mutual

/-- What holds of the tops of all parts that agree holds at every place. -/
theorem Agree.imp_parts :
    ∀ {t : Tree α} {u : Tree β}, Agree R t u →
      (∀ s v, s.Subtree t → v.Subtree u → Agree R s v → S s.label v.label) → Agree S t u
  | .node _ _, .node _ _, h, hS => by
    refine .node (hS _ _ .self .self h) (Agree.imp_parts_all (agree_node_iff.1 h).2 ?_)
    intro t ht u hu s v hs hv
    exact hS s v (.child ht hs) (.child hu hv)

theorem Agree.imp_parts_all :
    ∀ {ts : List (Tree α)} {us : List (Tree β)}, List.Forall₂ (Agree R) ts us →
      (∀ t ∈ ts, ∀ u ∈ us, ∀ s v, s.Subtree t → v.Subtree u → Agree R s v →
        S s.label v.label) → List.Forall₂ (Agree S) ts us
  | [], _, h, _ => by
    cases h
    exact .nil
  | t :: ts, _, h, hS => by
    cases h with
    | @cons _ u _ us ht hts =>
      refine .cons (Agree.imp_parts ht ?_) (Agree.imp_parts_all hts ?_)
      · exact hS t List.mem_cons_self u List.mem_cons_self
      · intro t' ht' u' hu'
        exact hS t' (List.mem_cons_of_mem t ht') u' (List.mem_cons_of_mem u hu')

end

theorem Agree.imp {t : Tree α} {u : Tree β} (h : Agree R t u) (hRS : ∀ a b, R a b → S a b) :
    Agree S t u :=
  h.imp_parts fun _ _ _ _ hparts => hRS _ _ hparts.label

/-! ## Orders -/

mutual

/-- In the order of a document, trees that agree have related labels. -/
theorem Agree.forall₂_preorder :
    ∀ {t : Tree α} {u : Tree β}, Agree R t u → List.Forall₂ R t.preorder u.preorder
  | .node _ _, .node _ _, h => by
    obtain ⟨hab, hts⟩ := agree_node_iff.1 h
    exact .cons hab (Agree.forall₂_preorderAll hts)

theorem Agree.forall₂_preorderAll :
    ∀ {ts : List (Tree α)} {us : List (Tree β)}, List.Forall₂ (Agree R) ts us →
      List.Forall₂ R (preorderAll ts) (preorderAll us)
  | [], _, h => by
    cases h
    exact .nil
  | _ :: _, _, h => by
    cases h with
    | cons ht hts =>
      exact List.rel_append (Agree.forall₂_preorder ht) (Agree.forall₂_preorderAll hts)

end

/-! ## Parts -/

theorem Subtree.label_mem {s t : Tree α} (h : s.Subtree t) : s.label ∈ t.preorder := by
  induction h with
  | self =>
    cases s
    exact List.mem_cons_self
  | child hu _ ih =>
    rw [preorder, preorderAll_eq]
    exact List.mem_cons_of_mem _ (List.mem_flatMap.2 ⟨_, hu, ih⟩)

/-- What stands somewhere in the second tree agrees with what stands there in the first. -/
theorem Agree.exists_of_subtree {t : Tree α} {u s : Tree β} (h : Agree R t u) (hs : s.Subtree u) :
    ∃ r : Tree α, r.Subtree t ∧ Agree R r s := by
  induction hs generalizing t with
  | self => exact ⟨t, .self, h⟩
  | child hv _ ih =>
    cases h with
    | node _ hts =>
      obtain ⟨w, hw, hwv⟩ := forall₂_exists_left hts hv
      obtain ⟨r, hr, hrs⟩ := ih hwv
      exact ⟨r, .child hw hr, hrs⟩

theorem Agree.exists_of_subtree_left {t s : Tree α} {u : Tree β} (h : Agree R t u)
    (hs : s.Subtree t) : ∃ r : Tree β, r.Subtree u ∧ Agree R s r := by
  induction hs generalizing u with
  | self => exact ⟨u, .self, h⟩
  | child hv _ ih =>
    cases h with
    | node _ hts =>
      obtain ⟨w, hw, hwv⟩ := forall₂_exists_left hts.flip hv
      obtain ⟨r, hr, hrs⟩ := ih hwv
      exact ⟨r, .child hw hr, hrs⟩

/-! ## Changed labels -/

mutual

theorem Agree.of_map {f : β → γ} {Q : α → γ → Prop} :
    ∀ {t : Tree α} {u : Tree β}, Agree Q t (u.map f) → Agree (fun a b => Q a (f b)) t u
  | .node _ _, .node _ _, h => by
    rw [map, mapAll_eq] at h
    obtain ⟨hab, hts⟩ := agree_node_iff.1 h
    exact .node hab (Agree.of_map_all hts)

theorem Agree.of_map_all {f : β → γ} {Q : α → γ → Prop} :
    ∀ {ts : List (Tree α)} {us : List (Tree β)}, List.Forall₂ (Agree Q) ts (us.map (map f)) →
      List.Forall₂ (Agree fun a b => Q a (f b)) ts us
  | [], [], _ => .nil
  | _ :: _, _ :: _, h => by
    rw [List.map_cons] at h
    cases h with
    | cons ht hts => exact .cons (Agree.of_map ht) (Agree.of_map_all hts)
  | [], _ :: _, h => nomatch h
  | _ :: _, [], h => nomatch h

end

end Tree

namespace Model

variable {α : Type} {R : α → Node → Prop} {m : Model}

theorem eq_subtree_of_subtree {h : Nat} {s : Tree Nat} (hs : s.Subtree (m.subtree h)) :
    s = m.subtree s.label := by
  generalize ht : m.subtree h = t at hs
  induction hs generalizing h with
  | self => rw [← ht, label_subtree]
  | child hv _ ih =>
    rw [subtree_eq] at ht
    cases ht
    obtain ⟨c, _, hc⟩ := List.mem_map.1 hv
    exact ih hc

/-- What agrees with the components below a node agrees with their handles. -/
theorem agree_subtree {t : Tree α} {h : Nat} (hagree : t.Agree R (m.unfold h)) :
    t.Agree (fun a g => R a (m.node g)) (m.subtree h) :=
  hagree.of_map

theorem agree_subtree_all {ts : List (Tree α)} {hs : List Nat}
    (hagree : List.Forall₂ (Tree.Agree R) ts (hs.map m.unfold)) :
    List.Forall₂ (Tree.Agree fun a g => R a (m.node g)) ts (hs.map m.subtree) := by
  refine Tree.Agree.of_map_all ?_
  rw [List.map_map]
  exact hagree

end Model

end RegLayer
