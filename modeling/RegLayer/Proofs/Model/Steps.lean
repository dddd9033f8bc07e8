/-
# `RegLayer.Proofs.Model.Steps` — models after any sequence of building steps

A model comes out of a sequence of steps: declarations, and new nodes at the top or below a node
that is there.  A new node is given, or it is a copy of one that the model holds.  A copy comes
with the links of the node that it was made of, and these are cleared when it is added
(`addEntry`), so it takes over what the node is and nothing of where it stands (`addEntry_eq`).

One step leaves alone everything that is there, but for the list that the new handle is appended
to (`Step.effect_run`).  A sequence of steps is how a model is built (`Built.run`), so the links
of the model agree and form a forest (`links_after_steps`).

Taken as given: every step fits the model that it is done on, which is to say that the node to add
below, and the node to copy, are there (`Fit`).  That can be decided for a given sequence.
-/
import Mathlib.Data.List.Sort
import RegLayer.Proofs.Model.Built
import RegLayer.Proofs.Model.Lineage

namespace RegLayer

/-- The entry as it is added: still the same node, but where it is put, and with nothing below
it. -/
def Entry.put (e : Entry) (under : Option Nat) : Entry :=
  { e with parent := under, children := #[] }

namespace Model

/-! ## Entries that come with links -/

/-- The model with one more entry, at the top or as the last child of a node that is there, whatever
links the entry comes with. -/
def addEntry (m : Model) (e : Entry) : Option Nat → Model
  | none =>
    { entries := m.entries.push (e.put none)
      labels := m.labels
      roots := m.roots.push m.size
      linked := linked_push_root m.linked e.node }
  | some p =>
    if h : p < m.entries.size then
      { entries := (m.entries.modify p (·.adopt m.size)).push (e.put (some p))
        labels := m.labels
        roots := m.roots
        linked := linked_push_child m.linked h e.node }
    else m

/-- Of an entry only the node counts. -/
theorem addEntry_eq (m : Model) (e : Entry) (under : Option Nat) :
    m.addEntry e under = m.add under e.node := by
  cases under with
  | none => rfl
  | some p => rfl

/-! ## Steps -/

/-- What a new node is like: as given, or like a node of the model. -/
inductive Likeness where
  | given (n : Node)
  | copy (h : Nat)

/-- The entry that is handed in: a node without links, or a copy with all the links of the entry
that it was made of. -/
def Likeness.entry (m : Model) : Likeness → Entry
  | given n => ⟨n, none, #[]⟩
  | copy h => ⟨m.node h, m.parent h, (m.children h).toArray⟩

/-- Only a node that is there is copied. -/
def Likeness.Fits (m : Model) : Likeness → Prop
  | given _ => True
  | copy h => h < m.size

/-- One step of building. -/
inductive Step where
  | declare (label : String)
  /-- A new node, at the top or below another one. -/
  | add (under : Option Nat) (new : Likeness)

/-- The step adds below a node that is there, if it does not add at the top. -/
def Step.Fits (m : Model) : Step → Prop
  | declare _ => True
  | add under new => (∀ p ∈ under, p < m.size) ∧ new.Fits m

/-- The model after a step. -/
def Step.run (m : Model) : Step → Model
  | declare label => (m.declare label).2
  | add under new => m.addEntry (new.entry m) under

/-- The model after steps. -/
def run (m : Model) (steps : List Step) : Model :=
  steps.foldl Step.run m

/-- Every step fits the model that it is taken in. -/
def Fit (m : Model) : List Step → Prop
  | [] => True
  | s :: rest => s.Fits m ∧ Fit (s.run m) rest

instance (m : Model) : (new : Likeness) → Decidable (new.Fits m)
  | .given _ => inferInstanceAs (Decidable True)
  | .copy _ => inferInstanceAs (Decidable (_ < _))

instance (m : Model) : (s : Step) → Decidable (s.Fits m)
  | .declare _ => inferInstanceAs (Decidable True)
  | .add _ _ => inferInstanceAs (Decidable (_ ∧ _))

instance decidableFit (m : Model) : (steps : List Step) → Decidable (Fit m steps)
  | [] => inferInstanceAs (Decidable True)
  | s :: rest =>
    have := decidableFit (s.run m) rest
    inferInstanceAs (Decidable (_ ∧ _))

/-! ## One step -/

/-- What a step does to a model: a declaration leaves the nodes alone, and a new node is one more
node. -/
def Step.Effect (m : Model) : Step → Model → Prop
  | declare label, m' =>
    m'.entries = m.entries ∧ m'.roots = m.roots ∧ m'.labels = m.labels.push label
  | add under new, m' => OneMore m under (new.entry m).node m'

variable {m : Model}

/-- **A step changes nothing of what is there**, but for the list that the new handle is appended
to. -/
theorem Step.effect_run {s : Step} (hs : s.Fits m) : s.Effect m (s.run m) := by
  cases s with
  | declare label => exact ⟨rfl, rfl, rfl⟩
  | add under new =>
    show OneMore m under (new.entry m).node (m.addEntry (new.entry m) under)
    rw [addEntry_eq]
    exact oneMore_add hs.1 _

theorem Built.run_step {s : Step} (hm : Built m) (hs : s.Fits m) : Built (s.run m) := by
  cases s with
  | declare label => exact .declare label hm
  | add under new =>
    show Built (m.addEntry (new.entry m) under)
    rw [addEntry_eq]
    exact hm.add _ hs.1

/-! ## Any sequence of steps -/

/-- Steps go on building a model. -/
theorem Built.run {steps : List Step} (hm : Built m) (hfit : Fit m steps) :
    Built (m.run steps) := by
  induction steps generalizing m with
  | nil => exact hm
  | cons s rest ih => exact ih (hm.run_step hfit.1) hfit.2

theorem Forest.roots_eq (hf : Forest m) :
    m.roots.toList = (List.range m.size).filter fun h => m.parent h = none := by
  have hrange : ((List.range m.size).filter fun h => m.parent h = none).Pairwise (· < ·) :=
    List.pairwise_lt_range.filter _
  have hsame : ∀ h, h ∈ m.roots.toList ↔
      h ∈ (List.range m.size).filter fun h => m.parent h = none := by
    intro h
    rw [hf.mem_roots, List.mem_filter, List.mem_range, decide_eq_true_iff]
  exact hf.roots_sorted.eq_of_mem_iff hrange hsame

/-- **After any steps the links form a forest.**  A node has a parent if and only if it is among the
children of that parent, once, and the parent was there before it; the children of a node are in the
order in which they were added; the roots are the nodes without a parent, in that order; the climb
from any node goes from parent to parent and ends at a root; and whatever step comes next, it
changes nothing of the nodes that are there but appends the new handle to one list. -/
theorem links_after_steps {steps : List Step} (hfit : Fit empty steps)
    (hm : empty.run steps = m) :
    (∀ i p, m.parent i = some p ↔ i ∈ m.children p) ∧
    (∀ i p, i ∈ m.children p → (m.children p).count i = 1 ∧ p < i ∧ i < m.size) ∧
    (∀ p, (m.children p).Pairwise (· < ·)) ∧
    m.roots.toList = ((List.range m.size).filter fun h => m.parent h = none) ∧
    (∀ h < m.size, (m.ancestors h).length ≤ h ∧
      (m.lineage h).IsChain (fun c p => m.parent c = some p) ∧
      ∃ r ∈ m.roots.toList, (m.lineage h).getLast? = some r) ∧
    ∀ s : Step, s.Fits m → s.Effect m (s.run m) := by
  have hbuilt : m.Built := hm ▸ Built.empty.run hfit
  have hf : Forest m := hbuilt.forest
  refine ⟨fun i p => (hf.mem_children p i).symm, ?_, hf.children_sorted, hf.roots_eq, ?_,
    fun s hs => s.effect_run hs⟩
  · intro i p hi
    exact ⟨List.count_eq_one_of_mem (hf.nodup_children p) hi, lt_of_mem_children hi⟩
  · intro h hh
    obtain ⟨r, hlast, hr⟩ := m.exists_getLast?_lineage h
    have hrh : r ≤ h := le_of_mem_lineage (List.mem_of_getLast? hlast)
    exact ⟨m.length_ancestors_le h, m.isChain_lineage h, r,
      (hf.mem_roots r).2 ⟨Nat.lt_of_le_of_lt hrh hh, hr⟩, hlast⟩

/-- Two register files in a map, and copies of nodes that have links of their own: the first file
below the second one, a register beside itself, and the second file at the top. -/
def interleavedSteps : List Step :=
  [.declare "blk_t", .add none (.given { name := "soc", kind := .addrmap .little false }),
    .add (some 0) (.given { name := "a", kind := .regfile }),
    .add (some 0) (.given { name := "b", kind := .regfile }),
    .add (some 1) (.given { name := "ctrl", kind := .reg 32 32 }), .add (some 2) (.copy 1),
    .add (some 1) (.copy 3), .add none (.copy 2)]

def interleaved : Model :=
  empty.run interleavedSteps

/-- The copies take their places in the forest, and one more copy goes to the end of its list. -/
theorem links_after_steps_interleaved :
    Fit empty interleavedSteps ∧ interleaved.parent 5 = some 1 ∧
      (interleaved.children 1).count 5 = 1 ∧ interleaved.roots.toList = [0, 6] ∧
      (∃ r ∈ [0, 6], (interleaved.lineage 4).getLast? = some r) ∧
      ∀ m', m' = (Step.add (some 2) (.copy 1)).run interleaved →
        m'.children 2 = [4, 7] ∧ m'.children 7 = [] ∧ m'.children 1 = [3, 5] := by
  have hfit : Fit empty interleavedSteps := by decide +kernel
  obtain ⟨hparent, honce, _, hroots, hclimb, hstep⟩ :=
    links_after_steps (m := interleaved) hfit rfl
  have hchild : 5 ∈ interleaved.children 1 := by decide +kernel
  have htop : interleaved.roots.toList = [0, 6] := by
    rw [hroots]
    decide +kernel
  refine ⟨hfit, (hparent 5 1).2 hchild, (honce 5 1 hchild).1, htop, ?_, ?_⟩
  · rw [← htop]
    exact (hclimb 4 (by decide +kernel)).2.2
  · rintro m' rfl
    have hmore : OneMore interleaved (some 2) (interleaved.node 1) _ :=
      hstep (.add (some 2) (.copy 1)) (by decide +kernel)
    have htwo : interleaved.children 2 = [4] := by decide +kernel
    have hone : interleaved.children 1 = [3, 5] := by decide +kernel
    refine ⟨?_, hmore.new_children, ?_⟩
    · rw [hmore.children_eq 2 (by decide +kernel), if_pos rfl, htwo]
      rfl
    · rw [hmore.children_eq 1 (by decide +kernel), if_neg (by decide), hone]

end Model

end RegLayer
