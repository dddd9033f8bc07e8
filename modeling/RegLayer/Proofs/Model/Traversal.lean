/-
# `RegLayer.Proofs.Model.Traversal` — what is met, how often, and in which order

There are two ways to go through what is below a node: the traversal meets every node after its
children, and the walk comes to every node twice, before and after its children.  Both go along
the lists of children, while being below a node is a matter of parents; in a model whose links
agree they meet exactly what is below the node, once.

What is put together from children to parents stays together (`infix_of_mem_postorder`), so the
part of a traversal or walk that belongs to a node is the traversal or walk from that node: it
stands between the two visits to it, and the traversal is the walk with only the second visits
kept.  All of this is `traversals_agree`, for every node of every model that was built step by
step.
-/
import RegLayer.Proofs.Model.Region
import RegLayer.Proofs.Model.Steps

namespace RegLayer

namespace Tree

variable {α : Type}

/-- The place that is visited. -/
def Visit.place : Visit α → α
  | enter a => a
  | leave a => a

/-- The place that is left by the visit. -/
def Visit.left? : Visit α → Option α
  | enter _ => none
  | leave a => some a

theorem Visit.place_eq_iff {v : Visit α} {a : α} : v.place = a ↔ v = enter a ∨ v = leave a := by
  cases v with
  | enter b => simp [place]
  | leave b => simp [place]

mutual

theorem mem_walk {v : Visit α} : ∀ {t : Tree α}, v ∈ t.walk ↔ v.place ∈ t.postorder
  | .node a ts => by
    rw [walk, postorder, List.mem_cons, List.mem_append, List.mem_append, List.mem_singleton,
      List.mem_singleton, mem_walkAll, Visit.place_eq_iff]
    exact or_left_comm

theorem mem_walkAll {v : Visit α} :
    ∀ {ts : List (Tree α)}, v ∈ walkAll ts ↔ v.place ∈ postorderAll ts
  | [] => by
    rw [walkAll, postorderAll]
    exact iff_of_false List.not_mem_nil List.not_mem_nil
  | t :: ts => by
    rw [walkAll, postorderAll, List.mem_append, List.mem_append, mem_walk, mem_walkAll]

end

mutual

theorem filterMap_left?_walk :
    ∀ t : Tree α, t.walk.filterMap Visit.left? = t.postorder
  | .node a ts => by
    rw [walk, postorder, List.filterMap_cons_none rfl, List.filterMap_append,
      filterMap_left?_walkAll ts]
    rfl

theorem filterMap_left?_walkAll :
    ∀ ts : List (Tree α), (walkAll ts).filterMap Visit.left? = postorderAll ts
  | [] => rfl
  | t :: ts => by
    rw [walkAll, postorderAll, List.filterMap_append, filterMap_left?_walk t,
      filterMap_left?_walkAll ts]

end

end Tree

namespace Model

open RegLayer.Tree (Visit)

variable {m : Model} {h a : Nat} {v : Visit Nat}

/-! ## The traversal -/

theorem exists_split_postorder (ha : a ∈ m.postorder h) :
    ∃ before after,
      m.postorder h = before ++ ((m.children a).flatMap m.postorder ++ a :: after) := by
  obtain ⟨before, after, hsplit⟩ := infix_postorder_of_mem ha
  refine ⟨before, after, ?_⟩
  rw [← hsplit, postorder_eq m a]
  simp

/-! ## The walk -/

theorem mem_walk : v ∈ m.walk h ↔ v.place ∈ m.postorder h :=
  Tree.mem_walk

theorem mem_flatMap_walk (hf : Forest m) :
    v ∈ (m.children a).flatMap m.walk ↔ a ∈ m.ancestors v.place := by
  rw [← mem_flatMap_postorder hf, List.mem_flatMap, List.mem_flatMap]
  exact exists_congr fun c => and_congr_right fun _ => mem_walk

/-- **A walk makes no visit twice.** -/
theorem nodup_walk (hf : Forest m) (h : Nat) : (m.walk h).Nodup := by
  -- No visit to `h` is among those below it, as `h` is not above itself.
  have hself : ∀ {h : Nat} {v : Visit Nat}, v.place = h → v ∉ (m.children h).flatMap m.walk := by
    intro h v hv hmem
    have habove := (mem_flatMap_walk hf).1 hmem
    rw [hv] at habove
    exact Nat.lt_irrefl h (lt_of_mem_ancestors habove)
  induction h using m.induct_children with
  | step h ih =>
    have hchildren : (m.children h).Pairwise fun c d => (m.walk c).Disjoint (m.walk d) := by
      refine (pairwise_disjoint_children hf h).imp fun hcd v hvc hvd => ?_
      exact hcd (mem_walk.1 hvc) (mem_walk.1 hvd)
    rw [walk_eq, List.nodup_cons, List.mem_append, List.mem_singleton, not_or, List.nodup_append']
    refine ⟨⟨hself rfl, fun heq => nomatch heq⟩, List.nodup_flatMap.2 ⟨ih, hchildren⟩,
      List.nodup_singleton _, ?_⟩
    intro v hv hvl
    obtain rfl := List.mem_singleton.1 hvl
    exact hself rfl hv

/-- **Walks are nested**: between entering and leaving a node there are exactly the visits to what
is below it. -/
theorem exists_split_walk (hf : Forest m) (ha : a ∈ m.postorder h) :
    ∃ before inside after, m.walk h = before ++ .enter a :: (inside ++ .leave a :: after) ∧
      ∀ v, v ∈ inside ↔ a ∈ m.ancestors v.place := by
  have hblock : m.walk a <:+: m.walk h := by
    refine infix_of_mem_postorder (fun p => ⟨[.enter p], [.leave p], ?_⟩) ha
    rw [walk_eq m p]
    rfl
  obtain ⟨before, after, hsplit⟩ := hblock
  refine ⟨before, (m.children a).flatMap m.walk, after, ?_, fun v => mem_flatMap_walk hf⟩
  rw [← hsplit, walk_eq m a]
  simp

/-- **Traversals are complete and agree.**  The traversal from a node meets exactly the node and the
nodes that have it above them, each once, after everything below it, and with the traversals from
its children right before it, in their order.  The walk from the node enters and leaves each of
them once; between entering and leaving a node there are exactly the visits to what is below that
node; and it leaves the nodes in the order of the traversal. -/
theorem traversals_agree (hm : m.Built) (top : Nat) :
    (∀ a, a ∈ m.postorder top ↔ a = top ∨ top ∈ m.ancestors a) ∧
    (m.postorder top).Nodup ∧
    (∀ before a after, m.postorder top = before ++ a :: after →
      ∀ d, a ∈ m.ancestors d → d ∈ before) ∧
    (∀ a ∈ m.postorder top, ∃ before after,
      m.postorder top = before ++ ((m.children a).flatMap m.postorder ++ a :: after)) ∧
    (m.walk top).Nodup ∧
    (∀ a, (.enter a ∈ m.walk top ↔ a ∈ m.postorder top) ∧
      (.leave a ∈ m.walk top ↔ a ∈ m.postorder top)) ∧
    (∀ a ∈ m.postorder top, ∃ before inside after,
      m.walk top = before ++ .enter a :: (inside ++ .leave a :: after) ∧
        ∀ v, v ∈ inside ↔ a ∈ m.ancestors v.place) ∧
    (m.walk top).filterMap Visit.left? = m.postorder top := by
  have hf : Forest m := hm.forest
  refine ⟨fun a => ?_, nodup_postorder hf top, ?_, fun a ha => exists_split_postorder ha,
    nodup_walk hf top, fun a => ⟨mem_walk, mem_walk⟩, fun a ha => exists_split_walk hf ha,
    Tree.filterMap_left?_walk _⟩
  · rw [mem_postorder hf, mem_lineage_iff]
    exact or_congr_left eq_comm
  · intro before a after hsplit d hd
    exact mem_before_of_mem_ancestors hf hsplit hd

/-- The order of a traversal is not the order in which the nodes were added: the copy of the first
register is met with its siblings, before the older nodes. -/
theorem traversals_agree_interleaved :
    interleaved.postorder 0 = [3, 5, 1, 4, 2, 0] ∧
      (∃ before, interleaved.postorder 0 = before ++ [1, 4, 2, 0] ∧ 5 ∈ before) ∧
      (∃ before inside after,
        interleaved.walk 0 = before ++ .enter 1 :: (inside ++ .leave 1 :: after) ∧
          .enter 5 ∈ inside ∧ .leave 4 ∉ inside) ∧
      (interleaved.walk 0).filterMap Visit.left? = [3, 5, 1, 4, 2, 0] := by
  have hbuilt : Built interleaved := Built.empty.run (by decide +kernel)
  have horder : interleaved.postorder 0 = [3, 5, 1, 4, 2, 0] := by decide +kernel
  obtain ⟨_, _, hafter, _, _, _, hnested, hleft⟩ := traversals_agree hbuilt 0
  obtain ⟨before, inside, after, hsplit, hinside⟩ := hnested 1 (by decide +kernel)
  refine ⟨horder, ⟨[3, 5], horder, ?_⟩, ⟨before, inside, after, hsplit, ?_, ?_⟩,
    hleft.trans horder⟩
  · exact hafter [3, 5] 1 [4, 2, 0] horder 5 (by decide +kernel)
  · exact (hinside _).2 (by decide +kernel)
  · exact mt (hinside _).1 (by decide +kernel)

end Model

end RegLayer
