/-
# `RegLayer.Proofs.Model.Matching` — models that agree where an export looks

An export looks at the nodes from its top downwards and, for the sake of paths and declarations,
at what stands above them (`Seen`).  `Matches` says that two models agree there, up to a change of
the descriptions: the nodes, their parents, and from the top downwards their children.

Every reading of the model that an export makes then comes out the same in both; each has its law
here, in the order in which the readings are built on each other, up to the table of bus widths.
What an export makes of the readings is `RegLayer.Proofs.Classes.Matching`.
-/
import Mathlib.Data.List.Find
import RegLayer.Proofs.BusWidth
import RegLayer.Proofs.Model.Region

namespace RegLayer

/-- The node with another description. -/
def Node.redescribe (g : Option String → Option String) (n : Node) : Node :=
  { n with description := g n.description }

@[simp] theorem Node.redescribe_id (n : Node) : n.redescribe id = n := rfl

namespace Model

variable {m m' : Model} {g : Option String → Option String} {top : Nat}

/-! ## What an export sees -/

/-- The node stands from the top downwards, or above such a node. -/
def Seen (m : Model) (top a : Nat) : Prop :=
  ∃ h ∈ m.postorder top, a ∈ m.lineage h

theorem seen_of_mem {h : Nat} (hh : h ∈ m.postorder top) : m.Seen top h :=
  ⟨h, hh, mem_lineage_self h⟩

theorem Seen.above {a b : Nat} (ha : m.Seen top a) (hb : b ∈ m.lineage a) : m.Seen top b := by
  obtain ⟨h, hh, hah⟩ := ha
  exact ⟨h, hh, mem_lineage_trans hah hb⟩

theorem seen_child {h c : Nat} (hh : h ∈ m.postorder top) (hc : c ∈ m.children h) :
    m.Seen top c :=
  seen_of_mem (mem_postorder_of_mem_children hh hc)

/-- The models agree on what an export from `top` sees, but for the descriptions, which agree
after they were changed. -/
structure Matches (g : Option String → Option String) (m m' : Model) (top : Nat) : Prop where
  node_eq : ∀ a, m.Seen top a → (m'.node a).redescribe g = (m.node a).redescribe g
  parent_eq : ∀ a, m.Seen top a → m'.parent a = m.parent a
  children_eq : ∀ h ∈ m.postorder top, m'.children h = m.children h

namespace Matches

variable (hs : Matches g m m' top)

include hs

theorem congr {α : Type} {f : Node → α} (hf : ∀ n : Node, f (n.redescribe g) = f n) {a : Nat}
    (ha : m.Seen top a) : f (m'.node a) = f (m.node a) := by
  rw [← hf (m'.node a), hs.node_eq a ha, hf]

theorem name_eq {a : Nat} (ha : m.Seen top a) : m'.name a = m.name a :=
  hs.congr (f := Node.name) (fun _ => rfl) ha

theorem kind_eq {a : Nat} (ha : m.Seen top a) : m'.kind a = m.kind a :=
  hs.congr (f := Node.kind) (fun _ => rfl) ha

/-! ## Upwards -/

theorem ancestors_eq {a : Nat} (ha : m.Seen top a) : m'.ancestors a = m.ancestors a :=
  ancestors_congr fun b hb => hs.parent_eq b (ha.above hb)

theorem lineage_eq {a : Nat} (ha : m.Seen top a) : m'.lineage a = m.lineage a :=
  congrArg (a :: ·) (hs.ancestors_eq ha)

theorem relPath_eq {h : Nat} (hh : m.Seen top h) (from_ : Option Nat) (sep : String) :
    m'.relPath h from_ sep = m.relPath h from_ sep := by
  have hclimb : m'.climb h from_ = m.climb h from_ := by
    unfold climb
    rw [hs.ancestors_eq hh]
  have hnames : (m.climb h from_).map m'.name = (m.climb h from_).map m.name :=
    List.map_congr_left fun a ha => hs.name_eq (hh.above (mem_lineage_of_mem_climb ha))
  rw [relPath_eq_join_climb, relPath_eq_join_climb, hclimb, hnames]

theorem path_eq {h : Nat} (hh : m.Seen top h) : m'.path h = m.path h :=
  hs.relPath_eq hh none "."

theorem owner_eq {h : Nat} (hh : m.Seen top h) : m'.owner h = m.owner h := by
  unfold owner
  rw [hs.lineage_eq hh]
  refine List.find?_congr fun a ha => ?_
  rw [hs.kind_eq (hh.above ha)]

theorem endianness_eq {h : Nat} (hh : m.Seen top h) : m'.endianness h = m.endianness h := by
  unfold endianness
  rw [hs.owner_eq hh]
  cases howner : m.owner h with
  | none => rfl
  | some a =>
    have ha : m.Seen top a := hh.above (List.mem_of_find?_eq_some howner)
    simp only [hs.kind_eq ha]

/-! ## Downwards -/

theorem fields_eq {h : Nat} (hh : h ∈ m.postorder top) : m'.fields h = m.fields h := by
  unfold fields
  rw [hs.children_eq h hh]
  refine List.filterMap_congr fun c hc => ?_
  rw [hs.kind_eq (seen_child hh hc)]

theorem registerCode_eq {h : Nat} (hh : h ∈ m.postorder top) :
    m'.registerCode h = m.registerCode h := by
  unfold registerCode
  rw [hs.fields_eq hh]

theorem postorder_below_eq {h : Nat} (hh : h ∈ m.postorder top) :
    m'.postorder h = m.postorder h := by
  induction h using m.induct_children with
  | step h ih =>
    rw [Model.postorder_eq, Model.postorder_eq m, hs.children_eq h hh]
    have hbelow : (m.children h).flatMap m'.postorder = (m.children h).flatMap m.postorder :=
      List.flatMap_congr fun c hc => ih c hc (mem_postorder_of_mem_children hh hc)
    rw [hbelow]

theorem postorder_eq : m'.postorder top = m.postorder top :=
  hs.postorder_below_eq (mem_postorder_self m top)

/-! ## The width table -/

theorem widest_eq {h : Nat} (hh : h ∈ m.postorder top) : m'.widest h = m.widest h := by
  unfold widest widestIn
  rw [hs.postorder_below_eq hh]
  have hkinds : ∀ a ∈ m.postorder h, (m'.kind a).accessBits = (m.kind a).accessBits := by
    intro a ha
    rw [hs.kind_eq (seen_of_mem (mem_postorder_trans hh ha))]
  rw [List.map_congr_left hkinds]

theorem groups_eq : m'.groups top = m.groups top := by
  unfold groups
  rw [hs.postorder_eq]
  refine List.filter_congr fun a ha => ?_
  rw [hs.kind_eq (seen_of_mem ha)]

theorem widths_eq : WidthTable.build m' top = WidthTable.build m top := by
  rw [WidthTable.build_eq_recordAll, WidthTable.build_eq_recordAll, hs.groups_eq]
  refine List.foldl_ext _ _ _ fun t a ha => ?_
  have ha : a ∈ m.postorder top := (List.mem_filter.1 ha).1
  rw [hs.path_eq (seen_of_mem ha), hs.widest_eq ha]

end Matches

end Model

end RegLayer
