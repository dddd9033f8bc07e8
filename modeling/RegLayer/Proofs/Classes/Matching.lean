/-
# `RegLayer.Proofs.Classes.Matching` — matching models have matching layers

Two models that agree on what an export sees, up to a change of the descriptions, are rendered
alike, up to the same change in the headings of the classes (`redescribe_render`).  Names, members
and the bus widths come out equal; the description of a node goes nowhere but into its heading.

The work is followed in the order in which it is done, with one lemma for each function of the
rendering: the names, one member, one class (`body?_eq`), all classes (`describe_eq`), the layer.
When one of these functions changes, its lemma is the one to look at.

Two results come from this.  With a change that replaces every description, descriptions are seen
to stay in the comments; with no change at all, what is added elsewhere is seen not to be
rendered.
-/
import RegLayer.Proofs.Layer
import RegLayer.Proofs.Model.Matching

namespace RegLayer

/-! ## Changing descriptions -/

namespace Classes

/-- The heading with another description. -/
def Heading.redescribe (g : Option String → Option String) (h : Heading) : Heading :=
  { h with description := g h.description }

/-- The class with another description above it. -/
def Body.redescribe (g : Option String → Option String) : Body → Body
  | register h width fields => register (h.redescribe g) width fields
  | block h busBytes endianness members => block (h.redescribe g) busBytes endianness members
  | memory h busBytes endianness entries width code =>
    memory (h.redescribe g) busBytes endianness entries width code

theorem Body.redescribe_id (b : Body) : b.redescribe id = b := by
  cases b <;> rfl

/-- The outcome with other descriptions. -/
def Context.Outcome.redescribe (g : Option String → Option String) (out : Context.Outcome) :
    Context.Outcome :=
  { out with bodies := out.bodies.map (Body.redescribe g) }

end Classes

/-- The layer with other descriptions. -/
def Layer.redescribe (g : Option String → Option String) (l : Layer) : Layer :=
  { l with bodies := l.bodies.map (Classes.Body.redescribe g) }

theorem Layer.redescribe_id (l : Layer) : l.redescribe id = l := by
  have hbodies : l.bodies.map (Classes.Body.redescribe id) = l.bodies :=
    (List.map_congr_left fun b _ => b.redescribe_id).trans (List.map_id _)
  unfold redescribe
  rw [hbodies]

namespace Exporter

variable (e : Exporter) (m : Model) (top : Nat)

theorem model_context : (e.context m top).names.model = m := rfl

theorem widths_context : (e.context m top).widths = WidthTable.build m top := rfl

theorem redescribe_render_eq (g : Option String → Option String) (output : String) :
    Layer.redescribe g <$> e.render m top output = (do
      checkTop m top
      let banner ← e.fillBanner m top output
      let container ← Classes.Container.ofPath e.options.containerStyle output
      let out ← Classes.Context.Outcome.redescribe g <$>
        (e.context m top).describe .empty (m.postorder top)
      Report.note (.rendered (m.path top) out.register.size)
      return e.wrap banner container out) := by
  simp only [render, map_bind, map_pure, bind_map_left]
  rfl

end Exporter

/-! ## Chains of declarations -/

variable {g : Option String → Option String}

theorem declaredPath_redescribe (d : DeclId) (ns : List Node) :
    declaredPath d (ns.map (Node.redescribe g)) = declaredPath d ns := by
  induction ns generalizing d with
  | nil => rfl
  | cons n ns ih =>
    have hdecl : (n.redescribe g).decl = n.decl := rfl
    have hscope : (n.redescribe g).scope = n.scope := rfl
    have htype : (n.redescribe g).typeName = n.typeName := rfl
    simp only [List.map_cons, declaredPath, ih, hdecl, hscope, htype]

theorem scopePath_redescribe (n : Node) (ns : List Node) :
    scopePath (n.redescribe g) (ns.map (Node.redescribe g)) = scopePath n ns := by
  unfold scopePath
  simp only [declaredPath_redescribe]
  rfl

/-! ## Describing with other descriptions -/

namespace Classes.Context

theorem redescribe_describe_cons (ctx : Context) (r : ClassRegister) (h : Nat) (hs : List Nat) :
    Outcome.redescribe g <$> ctx.describe r (h :: hs) =
      if (ctx.names.model.kind h).hasClass then do
        let claimed ← ctx.claim r h
        if claimed.1 then
          let body ← Option.map (Body.redescribe g) <$> ctx.body? h
          let out ← Outcome.redescribe g <$> ctx.describe claimed.2 hs
          return { out with bodies := body.toList ++ out.bodies }
        else
          let out ← Outcome.redescribe g <$> ctx.describe claimed.2 hs
          return { out with reused := out.reused + 1 }
      else Outcome.redescribe g <$> ctx.describe r hs := by
  rw [describe]
  split
  · rw [map_bind]
    refine bind_congr fun claimed => ?_
    obtain ⟨fresh, r⟩ := claimed
    cases fresh with
    | true =>
      have hparts : ∀ (body : Option Body) (out : Outcome),
          Outcome.redescribe g { out with bodies := body.toList ++ out.bodies } =
            { out.redescribe g with
              bodies := (body.map (Body.redescribe g)).toList ++ (out.redescribe g).bodies } := by
        intro body out
        simp only [Outcome.redescribe, List.map_append, Option.toList_map]
      simp only [if_true, map_bind, map_pure, bind_map_left, hparts]
    | false =>
      simp only [Bool.false_eq_true, if_false, map_bind, map_pure, bind_map_left]
      rfl
  · rfl

end Classes.Context

namespace Model.Matches

open Classes

variable {m m' : Model} {top h : Nat} (hs : Matches g m m' top) (e : Exporter)

include hs

/-! ## Names -/

theorem scopePath?_eq (hh : m.Seen top h) (sep : String) :
    (e.context m' top).names.scopePath? h sep = (e.context m top).names.scopePath? h sep := by
  have habove : ((m.ancestors h).map m'.node).map (Node.redescribe g) =
      ((m.ancestors h).map m.node).map (Node.redescribe g) := by
    rw [List.map_map, List.map_map]
    exact List.map_congr_left fun a ha => hs.node_eq a (hh.above (List.mem_cons_of_mem h ha))
  unfold Naming.scopePath?
  rw [e.model_context, e.model_context, hs.ancestors_eq hh, ← scopePath_redescribe (g := g),
    hs.node_eq h hh, habove, scopePath_redescribe]

theorem instancePath_eq (hh : m.Seen top h) (sep : String) :
    (e.context m' top).names.instancePath h sep =
      (e.context m top).names.instancePath h sep := by
  show m'.relPath h (m'.parent top) sep = m.relPath h (m.parent top) sep
  rw [hs.parent_eq top (seen_of_mem (mem_postorder_self m top)), hs.relPath_eq hh]

theorem className_eq (hh : m.Seen top h) :
    (e.context m' top).names.className h = (e.context m top).names.className h := by
  unfold Naming.className
  rw [hs.scopePath?_eq e hh, hs.instancePath_eq e hh]
  rfl

theorem friendlyName_eq (hh : m.Seen top h) :
    (e.context m' top).names.friendlyName h = (e.context m top).names.friendlyName h := by
  unfold Naming.friendlyName
  rw [hs.scopePath?_eq e hh, hs.instancePath_eq e hh, e.model_context, e.model_context,
    hs.kind_eq hh]
  rfl

theorem memberName_eq (hh : m.Seen top h) :
    (e.context m' top).names.memberName h = (e.context m top).names.memberName h := by
  unfold Naming.memberName
  rw [e.model_context, e.model_context, hs.name_eq hh]
  rfl

/-! ## One class -/

theorem heading_eq (hh : m.Seen top h) :
    ((e.context m' top).heading h).redescribe g = ((e.context m top).heading h).redescribe g := by
  have hdescription : g (m'.node h).description = g (m.node h).description :=
    congrArg Node.description (hs.node_eq h hh)
  simp only [Context.heading, Heading.redescribe, e.model_context, hs.className_eq e hh,
    hs.friendlyName_eq e hh, hdescription]

theorem member_eq (hh : h ∈ m.postorder top) :
    (e.context m' top).member h = (e.context m top).member h := by
  have hseen := seen_of_mem hh
  have hoffset : Offset.ofNode ((e.context m' top).names.model.node h) =
      Offset.ofNode ((e.context m top).names.model.node h) := hs.congr (fun _ => rfl) hseen
  have harray : ((e.context m' top).names.model.node h).array =
      ((e.context m top).names.model.node h).array :=
    hs.congr (f := Node.array) (fun _ => rfl) hseen
  have hkind : (e.context m' top).names.model.kind h = (e.context m top).names.model.kind h :=
    hs.kind_eq hseen
  have hcode : (e.context m' top).names.model.registerCode h =
      (e.context m top).names.model.registerCode h := hs.registerCode_eq hh
  simp only [Context.member]
  rw [hs.className_eq e hseen, hs.memberName_eq e hseen, hoffset, harray, hkind, hcode]

theorem components_eq (hh : h ∈ m.postorder top) :
    (e.context m' top).components h = (e.context m top).components h := by
  unfold Context.components
  rw [e.model_context, e.model_context, hs.children_eq h hh]
  refine List.filter_congr fun c hc => ?_
  rw [hs.kind_eq (seen_child hh hc)]

theorem members_eq (hh : h ∈ m.postorder top) :
    ((e.context m' top).components h).mapM (e.context m' top).member =
      ((e.context m top).components h).mapM (e.context m top).member := by
  rw [hs.components_eq e hh]
  refine mapM_congr fun c hc => hs.member_eq e ?_
  exact mem_postorder_of_mem_children hh (List.mem_filter.1 hc).1

theorem register_eq (hh : h ∈ m.postorder top) (width : UInt32) :
    ((e.context m' top).register h width).redescribe g =
      ((e.context m top).register h width).redescribe g := by
  have hfields : (m.fields h).map (e.context m' top).fieldMember =
      (m.fields h).map (e.context m top).fieldMember := by
    refine List.map_congr_left fun f hf => ?_
    obtain ⟨c, hc, hfield⟩ := List.mem_filterMap.1 hf
    obtain ⟨spec, _, rfl⟩ := Option.map_eq_some_iff.1 hfield
    unfold Context.fieldMember
    rw [hs.memberName_eq e (seen_child hh hc)]
  simp only [Context.register, Body.redescribe, e.model_context, hs.fields_eq hh, hfields,
    hs.heading_eq e (seen_of_mem hh)]

theorem block_eq (hh : h ∈ m.postorder top) :
    Body.redescribe g <$> (e.context m' top).block h =
      Body.redescribe g <$> (e.context m top).block h := by
  have hseen := seen_of_mem hh
  simp only [Context.block, map_bind, map_pure, Body.redescribe, e.model_context,
    e.widths_context, hs.widths_eq, hs.path_eq hseen, hs.endianness_eq hseen,
    hs.heading_eq e hseen, hs.members_eq e hh]

theorem memory_eq (hh : h ∈ m.postorder top) (entries : UInt64) (width : UInt32)
    (policy : Policy) :
    Body.redescribe g <$> (e.context m' top).memory h entries width policy =
      Body.redescribe g <$> (e.context m top).memory h entries width policy := by
  have hseen := seen_of_mem hh
  simp only [Context.memory, map_bind, map_pure, Body.redescribe, e.model_context,
    hs.path_eq hseen, hs.endianness_eq hseen, hs.heading_eq e hseen]

theorem body?_eq (hh : h ∈ m.postorder top) :
    Option.map (Body.redescribe g) <$> (e.context m' top).body? h =
      Option.map (Body.redescribe g) <$> (e.context m top).body? h := by
  have hsome : ∀ r : Report Body,
      Option.map (Body.redescribe g) <$> some <$> r = some <$> Body.redescribe g <$> r := by
    intro r
    simp only [Functor.map_map, Option.map_some]
  unfold Context.body?
  rw [e.model_context, e.model_context, hs.kind_eq (seen_of_mem hh)]
  cases m.kind h with
  | reg width accessWidth => simp only [map_pure, Option.map_some, hs.register_eq e hh]
  | addrmap endianness bridge => rw [hsome, hsome, hs.block_eq e hh]
  | regfile => rw [hsome, hsome, hs.block_eq e hh]
  | mem entries width policy => rw [hsome, hsome, hs.memory_eq e hh]
  | field spec => rfl
  | signal => rfl

/-! ## All classes -/

theorem claim_eq (hh : m.Seen top h) (r : ClassRegister) :
    (e.context m' top).claim r h = (e.context m top).claim r h := by
  have hdecl : (m'.node h).decl = (m.node h).decl :=
    hs.congr (f := Node.decl) (fun _ => rfl) hh
  simp only [Context.claim, e.model_context, hs.className_eq e hh, hdecl, hs.path_eq hh]

theorem describe_eq (r : ClassRegister) {l : List Nat} (hl : ∀ h ∈ l, h ∈ m.postorder top) :
    Context.Outcome.redescribe g <$> (e.context m' top).describe r l =
      Context.Outcome.redescribe g <$> (e.context m top).describe r l := by
  induction l generalizing r with
  | nil => rfl
  | cons h l ih =>
    have hh : h ∈ m.postorder top := hl h List.mem_cons_self
    have hrest := fun r => ih r fun c hc => hl c (List.mem_cons_of_mem h hc)
    rw [Context.redescribe_describe_cons, Context.redescribe_describe_cons, e.model_context,
      e.model_context, hs.kind_eq (seen_of_mem hh)]
    simp only [hs.claim_eq e (seen_of_mem hh), hs.body?_eq e hh, hrest]

/-! ## The layer -/

/-- **Matching models have matching layers**: the same notices, the same failure, and the same
layer up to the descriptions. -/
theorem redescribe_render (output : String) :
    Layer.redescribe g <$> e.render m' top output =
      Layer.redescribe g <$> e.render m top output := by
  have htop : m.Seen top top := seen_of_mem (mem_postorder_self m top)
  have hcheck : Exporter.checkTop m' top = Exporter.checkTop m top := by
    unfold Exporter.checkTop
    rw [hs.kind_eq htop, hs.name_eq htop]
  have hbanner : e.fillBanner m' top output = e.fillBanner m top output := by
    unfold Exporter.fillBanner
    rw [hs.name_eq htop]
  have hclasses : Context.Outcome.redescribe g <$>
        (e.context m' top).describe .empty (m'.postorder top) =
      Context.Outcome.redescribe g <$>
        (e.context m top).describe .empty (m.postorder top) := by
    rw [hs.postorder_eq]
    exact hs.describe_eq e .empty fun h hh => hh
  rw [e.redescribe_render_eq, e.redescribe_render_eq, hcheck, hbanner, hclasses, hs.path_eq htop]

end Model.Matches

end RegLayer
