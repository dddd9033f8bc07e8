/-
# `RegLayer.Model.Basic` — designs as linked entries

A model holds the nodes of a design in the order in which they were added, and a node is known by
its place in that order, its *handle*, a plain number.  Each entry is linked to the entry above it
and to those just below it.

The links only ever point backwards to a parent and forwards to a child.  This is part of what a
model is (`Linked`), because every climb and every descent ends for this reason; the operations
that make models carry the proof along.  That the three records of a link agree, the parent of a
child, the children of a parent and the list of roots, is not part of it: no function needs it to
come to an end, and it is proved of what the operations make (`RegLayer.Proofs.Model.Built`).

A handle that a model does not hold stands for a nameless signal with nothing above or below it.
Nodes are never taken out or changed, and a new node goes to the end of its list.
-/
import RegLayer.Node

namespace RegLayer

/-- A node with its links. -/
structure Entry where
  node : Node
  parent : Option Nat
  children : Array Nat

/-- The entry with one more child. -/
def Entry.adopt (e : Entry) (child : Nat) : Entry :=
  { e with children := e.children.push child }

/-- Parents come before their children, and every child is there. -/
def Linked (entries : Array Entry) : Prop :=
  ∀ (h : Nat) (e : Entry), entries[h]? = some e →
    (∀ p, e.parent = some p → p < h) ∧ ∀ c ∈ e.children, h < c ∧ c < entries.size

/-- Every node of every top-level tree of a design, and the declarations of their types. -/
structure Model where
  entries : Array Entry
  /-- The names under which the declarations are known. -/
  labels : Array String
  roots : Array Nat
  linked : Linked entries

namespace Model

/-! ## Reading -/

/-- The number of nodes, which is the handle of the next one. -/
def size (m : Model) : Nat :=
  m.entries.size

def node (m : Model) (h : Nat) : Node :=
  m.entries[h]?.elim .blank (·.node)

def parent (m : Model) (h : Nat) : Option Nat :=
  m.entries[h]?.bind (·.parent)

def children (m : Model) (h : Nat) : List Nat :=
  m.entries[h]?.elim [] (·.children.toList)

/-- The instance name of a node. -/
def name (m : Model) (h : Nat) : String :=
  (m.node h).name

def kind (m : Model) (h : Nat) : Kind :=
  (m.node h).kind

/-- The name under which a declaration is known. -/
def label? (m : Model) (d : DeclId) : Option String :=
  m.labels[d.index]?

theorem parent_lt {m : Model} {h p : Nat} (hp : m.parent h = some p) : p < h := by
  obtain ⟨e, he, hep⟩ := Option.bind_eq_some_iff.1 hp
  exact (m.linked h e he).1 p hep

theorem lt_of_mem_children {m : Model} {h c : Nat} (hc : c ∈ m.children h) :
    h < c ∧ c < m.size := by
  unfold children at hc
  cases he : m.entries[h]? with
  | none => simp [he] at hc
  | some e =>
    rw [he] at hc
    exact (m.linked h e he).2 c (Array.mem_toList_iff.1 hc)

/-! ## Building -/

/-- The model without nodes and declarations. -/
def empty : Model where
  entries := #[]
  labels := #[]
  roots := #[]
  linked := by simp [Linked]

/-- A new declaration, different from all others whatever their labels are. -/
def declare (m : Model) (label : String) : DeclId × Model :=
  (⟨m.labels.size⟩, { m with labels := m.labels.push label })

theorem linked_push_root {entries : Array Entry} (h : Linked entries) (n : Node) :
    Linked (entries.push ⟨n, none, #[]⟩) := by
  intro i e he
  rw [Array.getElem?_push] at he
  split at he
  · cases he
    simp
  · refine ⟨(h i e he).1, fun c hc => ?_⟩
    have := (h i e he).2 c hc
    simp only [Array.size_push]
    omega

theorem linked_push_child {entries : Array Entry} (h : Linked entries) {p : Nat}
    (hp : p < entries.size) (n : Node) :
    Linked ((entries.modify p (·.adopt entries.size)).push ⟨n, some p, #[]⟩) := by
  intro i e he
  rw [Array.getElem?_push, Array.size_modify] at he
  split at he
  · cases he
    subst i
    simpa using hp
  · rw [Array.getElem?_modify] at he
    simp only [Array.size_push, Array.size_modify]
    split at he
    · obtain ⟨e', he', rfl⟩ := Option.map_eq_some_iff.1 he
      obtain ⟨h₁, h₂⟩ := h i e' he'
      refine ⟨h₁, fun c hc => ?_⟩
      rcases Array.mem_push.1 hc with hc | rfl
      · have := h₂ c hc
        omega
      · omega
    · refine ⟨(h i e he).1, fun c hc => ?_⟩
      have := (h i e he).2 c hc
      omega

/-- The model with one more top-level node, whose handle is the former size. -/
def addRoot (m : Model) (n : Node) : Model where
  entries := m.entries.push ⟨n, none, #[]⟩
  labels := m.labels
  roots := m.roots.push m.size
  linked := linked_push_root m.linked n

/-- The model with one more node, the last child of `parent`; its handle is the former size.
Nothing is added below a handle that the model does not hold. -/
def addChild (m : Model) (parent : Nat) (n : Node) : Model :=
  if h : parent < m.entries.size then
    { entries := (m.entries.modify parent (·.adopt m.size)).push ⟨n, some parent, #[]⟩
      labels := m.labels
      roots := m.roots
      linked := linked_push_child m.linked h n }
  else m

/-- The model with one more node, top-level or below another one. -/
def add (m : Model) (under : Option Nat) (n : Node) : Model :=
  match under with
  | none => m.addRoot n
  | some p => m.addChild p n

/-! ## Top-level maps -/

/-- The first top-level address map. -/
def top (m : Model) : Option Nat :=
  m.roots.toList.find? fun h => (m.kind h).isAddrmap

/-- The first top-level address map of this name. -/
def findTop (m : Model) (name : String) : Option Nat :=
  m.roots.toList.find? fun h => m.name h == name && (m.kind h).isAddrmap

/-- The fields just below a node, in order, with their specifications. -/
def fields (m : Model) (h : Nat) : List (Nat × FieldSpec) :=
  (m.children h).filterMap fun c => (m.kind c).field?.map (c, ·)

/-- The access code under which a register is put into a map: whether software can write any of
its fields. -/
def registerCode (m : Model) (h : Nat) : AccessCode :=
  if (m.fields h).any (·.2.policy.canWrite) then .rw else .ro

/-! ## Laws -/

@[simp] theorem size_empty : empty.size = 0 := rfl

@[simp] theorem size_addRoot (m : Model) (n : Node) : (m.addRoot n).size = m.size + 1 := by
  simp [addRoot, size]

theorem size_addChild {m : Model} {p : Nat} (n : Node) (hp : p < m.size) :
    (m.addChild p n).size = m.size + 1 := by
  simp only [size] at *
  simp [addChild, hp]

end Model

end RegLayer
