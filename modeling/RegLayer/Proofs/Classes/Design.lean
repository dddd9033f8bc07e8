/-
# `RegLayer.Proofs.Classes.Design` — what a component calls for, and what its classes tell

What the class of a component has to say can be read off the component alone, without classes and
names.  Two trees are read off the outline of a component here.

    design    one node for each component that has a class, with what the class has to say: its
              kind and sizes, its fields, its members.  Nothing is left out but signals: what
              stands below a node without a class is counted to the component around that node.
    told      what the generated classes do say.  A block tells of the components just below it, a
              register of the fields just below it, a memory of nothing.

So a register in a memory is in the design of the memory and is not told.  The two trees are equal
exactly where every component stands just below an address map or register file and every field
just below a register (`told_eq_design_iff`, on models `told_eq_design_iff_housed`).  One half is a
count: what is told is a sublist of what is called for, so that one list has the length of the other
only if nothing is hidden below a node without a class (`length_filterMap_heldIn_eq_iff`).

Taken as given: nothing.  Every outline is covered, whatever stands inside what.
-/
import Mathlib.Algebra.Group.Nat.Defs
import RegLayer.Classes.Body
import RegLayer.Naming
import RegLayer.Proofs.BusWidth
import RegLayer.Proofs.Model.Alike
import RegLayer.Proofs.Model.Region

namespace RegLayer

/-! ## What a class says -/

namespace Classes

/-- What a block says about one of its members, the name of the member's class apart. -/
structure Slot where
  name : String
  dims : Option (List UInt64)
  base : UInt64
  /-- The distances between neighbours, by dimension. -/
  steps : List Nat
  mapping : Mapping
  deriving DecidableEq, Repr

/-- What a class is made for, and the sizes it is made with. -/
inductive Shape where
  | register (width : UInt32)
  | block (busBytes : Nat)
  | memory (busBytes : Nat) (entries : UInt64) (width : UInt32) (code : AccessCode)
  deriving DecidableEq, Repr

/-- What a class says, its comment, its name and the byte order apart. -/
structure Content where
  shape : Shape
  fields : List FieldMember
  slots : List Slot
  deriving DecidableEq, Repr

end Classes

open Classes

/-- The bytes that hold so many bits, at least one. -/
def bytesFor (bits : Nat) : Nat :=
  max 1 ((bits + 7) / 8)

/-- The distances between neighbours of an array: the elements inside one step times the stride. -/
def ArrayShape.distances (stride : UInt64) : List UInt64 → List Nat
  | [] => []
  | _ :: inner => (inner.map UInt64.toNat).prod * stride.toNat :: distances stride inner

/-! ## Where a class can tell of what stands inside -/

theorem Kind.isReg_eq_false {kind : Kind} (h : kind.hasClass = false) : kind.isReg = false := by
  cases kind with
  | field _ | signal => rfl
  | addrmap _ _ | regfile | reg _ _ | mem _ _ _ => cases h

theorem Kind.isGroup_eq_false {kind : Kind} (h : kind.hasClass = false) :
    kind.isGroup = false := by
  cases kind with
  | field _ | signal => rfl
  | addrmap _ _ | regfile | reg _ _ | mem _ _ _ => cases h

/-- What a class tells of: the components of a block and the fields of a register. -/
structure Kind.Houses (around inside : Kind) : Prop where
  part : inside.hasClass = true → around.isGroup = true
  field : inside.field?.isSome = true → around.isReg = true

instance (around inside : Kind) : Decidable (around.Houses inside) :=
  decidable_of_iff ((inside.hasClass = true → around.isGroup = true) ∧
      (inside.field?.isSome = true → around.isReg = true))
    ⟨fun h => ⟨h.1, h.2⟩, fun h => ⟨h.part, h.field⟩⟩

/-- From this node on downwards, components stand just below blocks and fields just below
registers. -/
def Model.Housed (m : Model) (h : Nat) : Prop :=
  ∀ a ∈ m.region h, ∀ c ∈ m.children a, (m.kind a).Houses (m.kind c)

instance (m : Model) (h : Nat) : Decidable (m.Housed h) :=
  inferInstanceAs (Decidable (∀ a ∈ m.region h, ∀ c ∈ m.children a, (m.kind a).Houses (m.kind c)))

namespace Outline

/-- Every component in the outline stands just below a block and every field just below a
register. -/
inductive Housed : Outline → Prop
  | node {label : Place × Kind} {ts : List Outline} :
      (∀ t ∈ ts, label.2.Houses t.kind) → (∀ t ∈ ts, Housed t) → Housed (.node label ts)

theorem housed_node_iff {label : Place × Kind} {ts : List Outline} :
    Housed (.node label ts) ↔ (∀ t ∈ ts, label.2.Houses t.kind) ∧ ∀ t ∈ ts, Housed t := by
  constructor
  · intro h
    cases h with
    | node htop hbelow => exact ⟨htop, hbelow⟩
  · intro ⟨htop, hbelow⟩
    exact .node htop hbelow

/-! ## What a component calls for -/

variable (upperCase : Bool)

/-- A name as the generated code shows it. -/
def shown (name : String) : String :=
  if upperCase then Text.upper name else name

/-- A field as the member of a register. -/
def field? (t : Outline) : Option FieldMember :=
  t.kind.field?.map fun spec =>
    { name := shown upperCase t.place.name
      width := spec.width
      lsb := spec.lsb
      code := accessCode spec.policy spec.onRead spec.onWrite
      isVolatile := spec.isVolatile
      reset := spec.reset
      writable := spec.policy.canWrite }

/-- A component with a class of its own. -/
def part? (t : Outline) : Option Outline :=
  if t.kind.hasClass then some t else none

/-- A component as a member of the block above it, given its fields: a register is mapped with its
access, all else as a map. -/
def slot (fields : List FieldMember) (t : Outline) : Slot where
  name := shown upperCase t.place.name
  dims := t.place.array.map (·.dims)
  base := t.place.offset
  steps := t.place.array.elim [] fun shape => ArrayShape.distances shape.stride shape.dims
  mapping :=
    if t.kind.isReg then .register (if fields.any (·.writable) then .rw else .ro) else .submap

/-- The bits of the widest access to anything in these outlines. -/
def widestAccess (ts : List Outline) : Nat :=
  ((ts.flatMap Tree.postorder).map fun l => l.2.accessBits.toNat).foldr max 0

/-- What the class of a component is made for, given what is below the component. -/
def shape (kind : Kind) (ts : List Outline) : Shape :=
  match kind with
  | .addrmap _ _ | .regfile => .block (bytesFor (widestAccess ts))
  | .mem entries width policy => .memory (bytesFor width.toNat) entries width policy.memoryCode
  | .reg width _ => .register width
  | .field _ | .signal => .register 0

mutual

/-- The node, and what is below it up to the next component. -/
def held : Outline → List Outline
  | .node label ts => .node label ts :: if label.2.hasClass then [] else heldIn ts

/-- What a component holds that has these below it: all nodes down to the next components, these
among them. -/
def heldIn : List Outline → List Outline
  | [] => []
  | t :: ts => held t ++ heldIn ts

end

/-- The fields that a component holds. -/
def fields (ts : List Outline) : List FieldMember :=
  (heldIn ts).filterMap (field? upperCase)

/-- The components that a component holds. -/
def parts (ts : List Outline) : List Outline :=
  (heldIn ts).filterMap part?

/-- What the class of a component has to say: whatever the component holds. -/
def content (kind : Kind) (ts : List Outline) : Content where
  shape := shape kind ts
  fields := fields upperCase ts
  slots := (parts ts).map fun t => slot upperCase (fields upperCase t.children) t

mutual

/-- What a component calls for; for a node without a class, what the components below it call
for. -/
def designAt : Outline → List (Tree Content)
  | .node label ts =>
    if label.2.hasClass then [.node (content upperCase label.2 ts) (designIn ts)] else designIn ts

def designIn : List Outline → List (Tree Content)
  | [] => []
  | t :: ts => designAt t ++ designIn ts

end

/-- What a component calls for: the content of its class and what the components that it holds call
for. -/
def design (t : Outline) : Tree Content :=
  .node (content upperCase t.kind t.children) (designIn upperCase t.children)

/-! ## What classes tell of a component -/

/-- What the class of a component tells: a register its fields, a block its components, but only
those just below. -/
def toldContent (kind : Kind) (ts : List Outline) : Content where
  shape := shape kind ts
  fields := if kind.isReg then ts.filterMap (field? upperCase) else []
  slots :=
    if kind.isGroup then (ts.filterMap part?).map fun t =>
      slot upperCase (t.children.filterMap (field? upperCase)) t
    else []

theorem toldContent_of_isGroup {kind : Kind} (hk : kind.isGroup = true) (ts : List Outline) :
    toldContent upperCase kind ts =
      ⟨.block (bytesFor (widestAccess ts)), [], (ts.filterMap part?).map fun t =>
        slot upperCase (t.children.filterMap (field? upperCase)) t⟩ := by
  cases kind <;> first | rfl | cases hk

mutual

/-- What the class of a component tells, together with the classes of its members. -/
def told : Outline → Tree Content
  | .node label ts =>
    .node (toldContent upperCase label.2 ts) (if label.2.isGroup then toldIn ts else [])

def toldIn : List Outline → List (Tree Content)
  | [] => []
  | t :: ts => if t.kind.hasClass then told t :: toldIn ts else toldIn ts

end

variable {upperCase}

theorem part?_eq_some_iff {t u : Outline} : part? t = some u ↔ t.kind.hasClass = true ∧ t = u := by
  unfold part?
  rw [Option.ite_none_right_eq_some, Option.some.injEq]

theorem toldIn_eq (ts : List Outline) :
    toldIn upperCase ts = (ts.filterMap part?).map (told upperCase) := by
  induction ts with
  | nil => rfl
  | cons t ts ih =>
    cases hk : t.kind.hasClass with
    | false => rw [toldIn, ih, List.filterMap_cons_none (by simp [part?, hk]), hk]; rfl
    | true => rw [toldIn, ih, List.filterMap_cons_some (part?_eq_some_iff.2 ⟨hk, rfl⟩), hk]; rfl

/-! ## What is held, and what stands just below -/

theorem held_eq (t : Outline) :
    held t = t :: if t.kind.hasClass then [] else heldIn t.children := by
  cases t with
  | node label ts => rfl

theorem sublist_heldIn (ts : List Outline) : ts.Sublist (heldIn ts) := by
  induction ts with
  | nil => exact List.Sublist.refl _
  | cons t ts ih =>
    rw [heldIn, held_eq, List.cons_append]
    exact (ih.trans (List.sublist_append_right _ _)).cons_cons t

/-- What is picked from all that a component holds is no more than what is picked from just below
it, if nothing is to be picked below a node without a class. -/
theorem length_filterMap_heldIn_eq_iff {β : Type} {f : Outline → Option β} {ts : List Outline} :
    ((heldIn ts).filterMap f).length = (ts.filterMap f).length ↔
      ∀ t ∈ ts, t.kind.hasClass = false → (heldIn t.children).filterMap f = [] := by
  induction ts with
  | nil => simp [heldIn]
  | cons t ts ih =>
    have hfewer : (ts.filterMap f).length ≤ ((heldIn ts).filterMap f).length :=
      ((sublist_heldIn ts).filterMap f).length_le
    have hall : ((heldIn (t :: ts)).filterMap f).length =
        ([t].filterMap f).length +
          (((if t.kind.hasClass then [] else heldIn t.children).filterMap f).length +
            ((heldIn ts).filterMap f).length) := by
      rw [heldIn, held_eq, List.cons_append, ← List.singleton_append, List.filterMap_append,
        List.filterMap_append, List.length_append, List.length_append]
    have hown : ((t :: ts).filterMap f).length =
        ([t].filterMap f).length + (ts.filterMap f).length := by
      rw [← List.singleton_append, List.filterMap_append, List.length_append]
    have hhidden : ((if t.kind.hasClass then [] else heldIn t.children).filterMap f).length = 0 ↔
        (t.kind.hasClass = false → (heldIn t.children).filterMap f = []) := by
      cases t.kind.hasClass <;> simp
    rw [hall, hown, List.forall_mem_cons, ← ih, ← hhidden]
    omega

theorem fields_eq_of_length_le {ts : List Outline}
    (h : (fields upperCase ts).length ≤ (ts.filterMap (field? upperCase)).length) :
    fields upperCase ts = ts.filterMap (field? upperCase) :=
  (((sublist_heldIn ts).filterMap _).eq_of_length_le h).symm

theorem fields_eq_iff {ts : List Outline} :
    fields upperCase ts = ts.filterMap (field? upperCase) ↔
      ∀ t ∈ ts, t.kind.hasClass = false → fields upperCase t.children = [] := by
  refine Iff.trans ?_ length_filterMap_heldIn_eq_iff
  constructor
  · exact congrArg List.length
  · intro h
    exact fields_eq_of_length_le (Nat.le_of_eq h)

theorem parts_eq_of_length_le {ts : List Outline}
    (h : (parts ts).length ≤ (ts.filterMap part?).length) : parts ts = ts.filterMap part? :=
  (((sublist_heldIn ts).filterMap _).eq_of_length_le h).symm

theorem parts_eq_iff {ts : List Outline} :
    parts ts = ts.filterMap part? ↔
      ∀ t ∈ ts, t.kind.hasClass = false → parts t.children = [] := by
  refine Iff.trans ?_ length_filterMap_heldIn_eq_iff
  constructor
  · exact congrArg List.length
  · intro h
    exact parts_eq_of_length_le (Nat.le_of_eq h)

mutual

theorem designAt_eq : ∀ t : Outline,
    designAt upperCase t = ((held t).filterMap part?).map (design upperCase)
  | .node label ts => by
    rw [designAt, held]
    cases hk : label.2.hasClass with
    | true =>
      have hpart : part? (.node label ts) = some (.node label ts) := part?_eq_some_iff.2 ⟨hk, rfl⟩
      rw [List.filterMap_cons_some hpart]
      rfl
    | false =>
      have hnone : part? (.node label ts) = none := by simp [part?, kind, hk]
      rw [List.filterMap_cons_none hnone]
      exact designIn_eq ts

theorem designIn_eq : ∀ ts : List Outline,
    designIn upperCase ts = (parts ts).map (design upperCase)
  | [] => rfl
  | t :: ts => by
    rw [designIn, designAt_eq t, designIn_eq ts]
    unfold parts
    rw [heldIn, List.filterMap_append, List.map_append]

end

/-! ## The two compared -/

theorem told_eq_design_of_not_hasClass {t : Outline} (hk : t.kind.hasClass = false) :
    told upperCase t = design upperCase t ↔
      parts t.children = [] ∧ fields upperCase t.children = [] := by
  cases t with
  | node label ts =>
    have htold : told upperCase (.node label ts) = .node ⟨shape label.2 ts, [], []⟩ [] := by
      have hreg : label.2.isReg = false := Kind.isReg_eq_false hk
      have hgroup : label.2.isGroup = false := Kind.isGroup_eq_false hk
      rw [told, toldContent, hreg, hgroup]
      rfl
    rw [htold, design, designIn_eq, Tree.node.injEq]
    constructor
    · intro ⟨hcontent, hbelow⟩
      exact ⟨List.map_eq_nil_iff.1 hbelow.symm, (congrArg Content.fields hcontent).symm⟩
    · intro ⟨hparts, hfields⟩
      rw [hparts, content, hparts, hfields]
      exact ⟨rfl, rfl⟩

theorem slot_eq_of_told {t : Outline} (h : told upperCase t = design upperCase t) :
    slot upperCase (t.children.filterMap (field? upperCase)) t =
      slot upperCase (fields upperCase t.children) t := by
  cases t with
  | node label ts =>
    rw [told, design, Tree.node.injEq] at h
    have hfields := congrArg Content.fields h.1
    cases hreg : label.2.isReg with
    | true =>
      have heq : ts.filterMap (field? upperCase) = fields upperCase ts := by
        simpa only [toldContent, content, kind, Tree.label_node, Tree.children_node, hreg, if_true]
          using hfields
      rw [Tree.children_node, heq]
    | false => simp [slot, kind, hreg]

theorem ite_map_eq_map {α β : Type} {b : Bool} {l : List α} {f g : α → β}
    (h : ∀ a ∈ l, b = true ∧ f a = g a) : (if b then l.map f else []) = l.map g := by
  cases l with
  | nil => exact ite_self _
  | cons a l =>
    rw [if_pos (h a List.mem_cons_self).1]
    exact List.map_congr_left fun d hd => (h d hd).2

theorem mem_filterMap_part? {t : Outline} {ts : List Outline} (ht : t ∈ ts)
    (hk : t.kind.hasClass = true) : t ∈ ts.filterMap part? :=
  List.mem_filterMap.2 ⟨t, ht, part?_eq_some_iff.2 ⟨hk, rfl⟩⟩

theorem exists_mem_filterMap_field? {t : Outline} {ts : List Outline} (ht : t ∈ ts)
    (hk : t.kind.field?.isSome = true) : ∃ f, f ∈ ts.filterMap (field? upperCase) := by
  obtain ⟨spec, hspec⟩ := Option.isSome_iff_exists.1 hk
  exact ⟨_, List.mem_filterMap.2 ⟨t, ht, congrArg (Option.map _) hspec⟩⟩

theorem ite_fields_eq_iff {b : Bool} {ts : List Outline} :
    (if b then ts.filterMap (field? upperCase) else []) = fields upperCase ts ↔
      fields upperCase ts = ts.filterMap (field? upperCase) ∧
        ∀ t ∈ ts, t.kind.field?.isSome = true → b = true := by
  constructor
  · intro h
    have hjust : fields upperCase ts = ts.filterMap (field? upperCase) := by
      refine fields_eq_of_length_le ?_
      rw [← h]
      cases b <;> simp
    refine ⟨hjust, fun t ht hk => ?_⟩
    obtain ⟨f, hin⟩ := @exists_mem_filterMap_field? upperCase _ _ ht hk
    by_contra hb
    rw [if_neg hb] at h
    rw [← hjust, ← h] at hin
    cases hin
  · intro ⟨hjust, hreg⟩
    rw [hjust]
    cases b with
    | true => rfl
    | false =>
      refine (List.filterMap_eq_nil_iff.2 fun t ht => ?_).symm
      have hno := mt (hreg t ht) Bool.false_ne_true
      exact Option.map_eq_none_iff.2 (by simpa using hno)

theorem ite_parts_eq_iff {α : Type} {b : Bool} {f g : Outline → α} {ts : List Outline} :
    (if b then (ts.filterMap part?).map f else []) = (parts ts).map g ↔
      parts ts = ts.filterMap part? ∧
        ∀ t ∈ ts, t.kind.hasClass = true → b = true ∧ f t = g t := by
  constructor
  · intro h
    have hjust : parts ts = ts.filterMap part? := by
      refine parts_eq_of_length_le ?_
      have hlength := congrArg List.length h
      rw [List.length_map] at hlength
      rw [← hlength]
      cases b <;> simp
    refine ⟨hjust, fun t ht hk => ?_⟩
    have hin : t ∈ ts.filterMap part? := mem_filterMap_part? ht hk
    have hb : b = true := by
      by_contra hb
      rw [if_neg hb, eq_comm, List.map_eq_nil_iff] at h
      rw [← hjust, h] at hin
      cases hin
    rw [if_pos hb, hjust, List.map_inj_left] at h
    exact ⟨hb, h t hin⟩
  · intro ⟨hjust, hpart⟩
    rw [hjust]
    refine ite_map_eq_map fun t ht => ?_
    obtain ⟨u, hu, hut⟩ := List.mem_filterMap.1 ht
    obtain ⟨hk, rfl⟩ := part?_eq_some_iff.1 hut
    exact hpart u hu hk

theorem told_eq_design_node_iff {label : Place × Kind} {ts : List Outline} :
    told upperCase (.node label ts) = design upperCase (.node label ts) ↔
      fields upperCase ts = ts.filterMap (field? upperCase) ∧ parts ts = ts.filterMap part? ∧
        (∀ t ∈ ts, label.2.Houses t.kind) ∧
        ∀ t ∈ ts, t.kind.hasClass = true → told upperCase t = design upperCase t := by
  have hnode : told upperCase (.node label ts) = design upperCase (.node label ts) ↔
      ((if label.2.isReg then ts.filterMap (field? upperCase) else []) = fields upperCase ts ∧
        (if label.2.isGroup then (ts.filterMap part?).map fun t =>
            slot upperCase (t.children.filterMap (field? upperCase)) t else []) =
          (parts ts).map fun t => slot upperCase (fields upperCase t.children) t) ∧
      (if label.2.isGroup then (ts.filterMap part?).map (told upperCase) else []) =
        (parts ts).map (design upperCase) := by
    rw [told, design, toldIn_eq, designIn_eq, Tree.node.injEq]
    simp only [toldContent, content, kind, Tree.label_node, Tree.children_node, Content.mk.injEq,
      true_and]
  rw [hnode, ite_fields_eq_iff, ite_parts_eq_iff, ite_parts_eq_iff]
  constructor
  · intro ⟨⟨⟨hfields, hreg⟩, hparts, hslots⟩, _, hbelow⟩
    exact ⟨hfields, hparts, fun t ht => ⟨fun hk => (hslots t ht hk).1, hreg t ht⟩,
      fun t ht hk => (hbelow t ht hk).2⟩
  · intro ⟨hfields, hparts, hhouses, hbelow⟩
    have hpart : ∀ t ∈ ts, t.kind.hasClass = true → label.2.isGroup = true :=
      fun t ht => (hhouses t ht).part
    refine ⟨⟨⟨hfields, fun t ht => (hhouses t ht).field⟩, hparts, ?_⟩, hparts, ?_⟩
    · intro t ht hk
      -- What is told of a component settles the slot that the block has for it.
      exact ⟨hpart t ht hk, slot_eq_of_told (hbelow t ht hk)⟩
    · intro t ht hk
      exact ⟨hpart t ht hk, hbelow t ht hk⟩

/-- **What is told is what is called for** exactly where components stand just below blocks and
fields just below registers. -/
theorem told_eq_design_iff {t : Outline} :
    told upperCase t = design upperCase t ↔ Housed t := by
  induction t using Tree.induct with
  | step label ts ih =>
    have hbelow : (∀ t ∈ ts, Housed t) ↔
        fields upperCase ts = ts.filterMap (field? upperCase) ∧ parts ts = ts.filterMap part? ∧
          ∀ t ∈ ts, (kind t).hasClass = true → told upperCase t = design upperCase t := by
      rw [fields_eq_iff, parts_eq_iff]
      constructor
      · intro hall
        refine ⟨?_, ?_, fun t ht _ => (ih t ht).2 (hall t ht)⟩
        · intro t ht hk
          exact ((told_eq_design_of_not_hasClass hk).1 ((ih t ht).2 (hall t ht))).2
        · intro t ht hk
          exact ((told_eq_design_of_not_hasClass hk).1 ((ih t ht).2 (hall t ht))).1
      · intro ⟨hfields, hparts, hclassed⟩ t ht
        refine (ih t ht).1 ?_
        cases hk : (kind t).hasClass with
        | true => exact hclassed t ht hk
        | false => exact (told_eq_design_of_not_hasClass hk).2 ⟨hparts t ht hk, hfields t ht hk⟩
    rw [told_eq_design_node_iff, housed_node_iff, hbelow]
    constructor
    · intro ⟨hfields, hparts, hhouses, hclassed⟩
      exact ⟨hhouses, hfields, hparts, hclassed⟩
    · intro ⟨hhouses, hfields, hparts, hclassed⟩
      exact ⟨hfields, hparts, hhouses, hclassed⟩

end Outline

/-! ## On models -/

namespace Model

variable {m : Model}

theorem housed_outline_iff {h : Nat} :
    Outline.Housed (m.outline h) ↔
      ∀ a ∈ m.postorder h, ∀ c ∈ m.children a, (m.kind a).Houses (m.kind c) := by
  induction h using m.induct_children with
  | step h ih =>
    rw [outline_eq, Outline.housed_node_iff, postorder_eq, List.forall_mem_append,
      List.forall_mem_singleton, and_comm]
    simp only [List.forall_mem_map, List.forall_mem_flatMap, kind_outline]
    refine and_congr_left' (forall₂_congr fun c hc => ih c hc)

/-- **What the classes tell of a component is all there is to it** exactly where, from it on
downwards, components stand just below blocks and fields just below registers. -/
theorem told_eq_design_iff_housed (hf : Forest m) {h : Nat} (hh : h < m.size) (upperCase : Bool) :
    Outline.told upperCase (m.outline h) = Outline.design upperCase (m.outline h) ↔
      m.Housed h := by
  rw [Outline.told_eq_design_iff, housed_outline_iff]
  unfold Housed
  simp only [mem_region_iff_mem_postorder hf hh]

end Model

end RegLayer
