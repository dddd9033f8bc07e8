/-
# `RegLayer.Proofs.Classes.MemberNames` — the members of a class and their names

A register class has a member for each of its fields, a block class one for each component just
below it, and a member is named after its node.  The members of a class are read back from its
text, as the lines that declare them (`declares_memberNames`), so that the result is about what
was written.

Siblings with different names make for different members, as long as names are taken as they are.
In upper case two names can become one, as those of two registers can that differ in nothing but
case (`members_can_clash`).  Nobody notices, unlike with the names of classes; so with upper case
the members of a class are told apart exactly if the names of its nodes still are
(`member_names_distinct_iff`).

Taken as given: the layer has been rendered, and siblings have different names.
-/
import Mathlib.Data.List.Nodup
import RegLayer.Proofs.Layer
import RegLayer.Proofs.Naming.Hierarchical

namespace RegLayer

namespace Classes

/-- The names of the members that a class declares, in their order. -/
def Body.memberNames : Body → List String
  | .register _ _ fields => fields.map (·.name)
  | .block _ _ _ members => members.map (·.name)
  | .memory _ _ _ _ _ _ => ["m_mem"]

/-- The line declares a member of this name. -/
def DeclaresMember (line name : String) : Prop :=
  ∃ type dims, line = indented 1 ("rand " ++ type ++ " " ++ name ++ dimsText dims ++ ";")

theorem declaresMember_map {α : Type} {line name : α → String} :
    (∀ a, DeclaresMember (line a) (name a)) → ∀ l : List α,
      List.Forall₂ DeclaresMember (l.map line) (l.map name) := by
  intro h l
  induction l with
  | nil => exact .nil
  | cons a l ih => exact .cons (h a) ih

/-- A class declares its members one after the other, each on a line. -/
theorem declares_memberNames (style : CodeStyle) (body : Body) :
    ∃ before lines after, body.lines style = before ++ (lines ++ after) ∧
      List.Forall₂ DeclaresMember lines body.memberNames := by
  cases body with
  | register heading width fields =>
    have hlines : List.Forall₂ DeclaresMember
        (fields.map fun f => indented 1 ("rand uvm_reg_field " ++ f.name ++ ";"))
        (fields.map (·.name)) := by
      refine declaresMember_map (fun f => ⟨"uvm_reg_field", none, ?_⟩) fields
      simp [dimsText, String.append_assoc]
    simp only [Body.lines, registerLines, List.append_assoc]
    exact ⟨_, _, _, rfl, hlines⟩
  | block heading bytes endianness members =>
    have hlines : List.Forall₂ DeclaresMember (members.map declarationLine)
        (members.map (·.name)) := by
      refine declaresMember_map (fun c => ?_) members
      exact ⟨c.className, c.dims, by rw [declarationLine]⟩
    simp only [Body.lines, blockLines, List.append_assoc]
    exact ⟨_, _, _, rfl, hlines⟩
  | memory heading bytes endianness entries width code =>
    have hlines : List.Forall₂ DeclaresMember [indented 1 "rand uvm_mem m_mem;"] ["m_mem"] :=
      .cons ⟨"uvm_mem", none, congrArg (indented 1) (by decide +kernel)⟩ .nil
    obtain ⟨after, hafter⟩ : ∃ after,
        memoryLines style heading bytes endianness entries width code =
          headingLines style heading "uvm_reg_block" ++
            (indented 1 "rand uvm_mem m_mem;" :: after) := by
      simp only [memoryLines, List.append_assoc, List.cons_append]
      exact ⟨_, rfl⟩
    exact ⟨_, [indented 1 "rand uvm_mem m_mem;"], after, hafter, hlines⟩

namespace Context

variable {ctx : Context} {h : Nat} {body : Body}

/-- The nodes that the class of a node has members for. -/
def declared (ctx : Context) (h : Nat) : List Nat :=
  match ctx.names.model.kind h with
  | .reg _ _ => (ctx.names.model.fields h).map Prod.fst
  | .addrmap _ _ | .regfile => ctx.components h
  | .mem _ _ _ | .field _ | .signal => []

theorem declared_of_isGroup (hgroup : (ctx.names.model.kind h).isGroup = true) :
    ctx.declared h = ctx.components h := by
  unfold declared
  cases hkind : ctx.names.model.kind h with
  | addrmap _ _ | regfile => rfl
  | reg _ _ | mem _ _ _ | field _ | signal =>
    rw [hkind] at hgroup
    cases hgroup

theorem declared_sublist (ctx : Context) (h : Nat) :
    (ctx.declared h).Sublist (ctx.names.model.children h) := by
  unfold declared
  split
  · unfold Model.fields
    induction ctx.names.model.children h with
    | nil => exact .slnil
    | cons c cs ih =>
      rw [List.filterMap_cons]
      cases (ctx.names.model.kind c).field? with
      | none => exact ih.cons c
      | some spec => exact ih.cons_cons c
  · exact List.filter_sublist
  · exact List.filter_sublist
  all_goals exact List.nil_sublist _

theorem names_of_members {cs : List Nat} {members : List Member} :
    List.Forall₂ (fun c member => ctx.member c = .ok member) cs members →
      members.map (·.name) = cs.map ctx.names.memberName := by
  intro h
  induction h with
  | nil => rfl
  | @cons c member cs members hmember _ ih =>
    simp only [Context.member, bind_eq_ok, pure_eq_ok] at hmember
    obtain ⟨offset, _, rfl⟩ := hmember
    rw [List.map_cons, List.map_cons, ih]

theorem Describes.memberNames_eq (hd : ctx.Describes h body) :
    body.memberNames = (ctx.declared h).map ctx.names.memberName ∨
      body.memberNames = ["m_mem"] ∧ ctx.declared h = [] := by
  cases hd with
  | register hkind =>
    refine Or.inl ?_
    simp [Context.register, Body.memberNames, declared, hkind, fieldMember]
  | block hgroup _ hmembers =>
    refine Or.inl ?_
    rw [declared_of_isGroup hgroup]
    exact names_of_members hmembers
  | memory hkind _ =>
    refine Or.inr ⟨rfl, ?_⟩
    simp [declared, hkind]

theorem Describes.nodup_memberNames_iff (hd : ctx.Describes h body)
    (hnodup : (ctx.declared h).Nodup) :
    body.memberNames.Nodup ↔ ∀ a ∈ ctx.declared h, ∀ b ∈ ctx.declared h,
      ctx.names.memberName a = ctx.names.memberName b → a = b := by
  rcases hd.memberNames_eq with hnames | ⟨hnames, hnone⟩
  · rw [hnames]
    exact List.nodup_map_iff_inj_on hnodup
  · simp [hnames, hnone]

theorem Run.exists_described {done : List Nat} {out : Outcome} (hrun : ctx.Run done out) :
    ∀ body ∈ out.bodies, ∃ h ∈ done, ctx.Describes h body := by
  induction hrun with
  | start => exact fun body hbody => absurd hbody List.not_mem_nil
  | skip _ _ ih =>
    intro body hbody
    obtain ⟨h, hh, hd⟩ := ih body hbody
    exact ⟨h, List.mem_append_left _ hh, hd⟩
  | @write done out h new _ _ _ hnew ih =>
    intro body hbody
    rcases List.mem_append.1 hbody with hbody | hbody
    · obtain ⟨g, hg, hd⟩ := ih body hbody
      exact ⟨g, List.mem_append_left _ hg, hd⟩
    · obtain rfl := List.mem_singleton.1 hbody
      exact ⟨h, List.mem_append_right _ (List.mem_singleton_self h), hnew⟩
  | reuse _ _ _ _ ih =>
    intro body hbody
    obtain ⟨h, hh, hd⟩ := ih body hbody
    exact ⟨h, List.mem_append_left _ hh, hd⟩

end Context

end Classes

open Classes

theorem Naming.memberName_eq_iff {names : Naming} {a b : Nat} :
    names.memberName a = names.memberName b ↔
      if names.upperCase then Text.upper (names.model.name a) = Text.upper (names.model.name b)
      else names.model.name a = names.model.name b := by
  unfold memberName
  split <;> rfl

namespace Exporter

variable {e : Exporter} {m : Model} {top : Nat} {output : String} {layer : Layer}

/-- **Members of a class clash only in upper case.**  Let the children of every node have different
names.  Then each class of a rendered layer declares its members on lines of their own, and was
written for a node of the traversal; and its members have different names exactly if upper case is
not asked for, or leaves the names of the nodes that they stand for different. -/
theorem member_names_distinct_iff (hsiblings : ∀ p, ((m.children p).map m.name).Nodup)
    (hok : (e.render m top output).outcome = .ok layer) :
    ∀ body ∈ layer.bodies,
      (∃ before lines after, body.lines layer.style = before ++ (lines ++ after) ∧
        List.Forall₂ DeclaresMember lines body.memberNames) ∧
      ∃ h ∈ m.postorder top, (e.context m top).Describes h body ∧
        (body.memberNames.Nodup ↔ (e.options.upperCaseNames = true →
          ∀ a ∈ (e.context m top).declared h, ∀ b ∈ (e.context m top).declared h,
            Text.upper (m.name a) = Text.upper (m.name b) → a = b)) := by
  intro body hbody
  obtain ⟨_, out, hrun, hbodies, _, _⟩ := run_of_render hok
  obtain ⟨h, hh, hd⟩ := hrun.exists_described body (hbodies ▸ hbody)
  have hsub : ((e.context m top).declared h).Sublist (m.children h) :=
    Context.declared_sublist (e.context m top) h
  have hnames : (((e.context m top).declared h).map m.name).Nodup :=
    (hsiblings h).sublist (hsub.map m.name)
  refine ⟨declares_memberNames layer.style body, h, hh, hd, ?_⟩
  rw [hd.nodup_memberNames_iff (List.Nodup.of_map m.name hnames)]
  simp only [Naming.memberName_eq_iff]
  show (∀ a ∈ _, ∀ b ∈ _, (if e.options.upperCaseNames = true then
    Text.upper (m.name a) = Text.upper (m.name b) else m.name a = m.name b) → a = b) ↔ _
  cases e.options.upperCaseNames with
  | true => simp
  | false =>
    simp only [Bool.false_eq_true, if_false, false_implies, iff_true]
    intro a ha b hb
    exact List.inj_on_of_nodup_map hnames ha hb

/-! ### Two registers in upper case -/

/-- A map with two registers of these names. -/
def twoRegisters (first second : String) : String :=
  "<model><addrmap name=\"soc\"><reg name=\"" ++ first ++ "\"/><reg name=\"" ++ second ++
    "\" offset=\"0x4\"/></addrmap></model>"

/-- An export with names of members in upper case. -/
def inCapitals : Exporter :=
  ⟨{ upperCaseNames := true }, ""⟩

/-- The design of two registers with its layer. -/
def layerOfTwo (first second : String) : Except Failure (Model × Layer) :=
  inCapitals.withLayer (Description.read (twoRegisters first second)) 0 "soc_pkg.sv"

/-- Whether siblings have different names in a design, and the names of the members in each class of
its layer. -/
def siblingsAndMembers (r : Model × Layer) : Bool × List (List String) :=
  (decide r.1.DistinctSiblings, r.2.bodies.map Body.memberNames)

theorem exists_of_siblingsAndMembers {first second : String} {names : List String} :
    siblingsAndMembers <$> layerOfTwo first second = .ok (true, [[], [], names]) →
      ∃ m layer, Description.read (twoRegisters first second) = .ok m ∧
        (inCapitals.render m 0 "soc_pkg.sv").outcome = .ok layer ∧
        (∀ p, ((m.children p).map m.name).Nodup) ∧
        ∃ body ∈ layer.bodies, body.memberNames = names := by
  intro h
  obtain ⟨⟨m, layer⟩, hok, hfacts⟩ := map_eq_ok.1 h
  obtain ⟨hread, hrender⟩ := withLayer_eq_ok.1 hok
  obtain ⟨hdistinct, hnames⟩ := Prod.mk.inj hfacts
  have hblock : names ∈ layer.bodies.map Body.memberNames := by simp [hnames]
  obtain ⟨body, hbody, hmembers⟩ := List.mem_map.1 hblock
  exact ⟨m, layer, hread, hrender, (of_decide_eq_true hdistinct).nodup_children, body, hbody,
    hmembers⟩

theorem layerOfTwo_ctrl_status :
    siblingsAndMembers <$> layerOfTwo "ctrl" "status" =
      .ok (true, [[], [], ["CTRL", "STATUS"]]) := by
  decide +kernel

/-- The two registers have different names in upper case, too. -/
theorem member_names_distinct_iff_ctrl_status :
    ∃ m layer, Description.read (twoRegisters "ctrl" "status") = .ok m ∧
      (inCapitals.render m 0 "soc_pkg.sv").outcome = .ok layer ∧
      ∃ body ∈ layer.bodies, body.memberNames = ["CTRL", "STATUS"] ∧
        ∃ h ∈ m.postorder 0, (inCapitals.context m 0).Describes h body ∧
          ∀ a ∈ (inCapitals.context m 0).declared h, ∀ b ∈ (inCapitals.context m 0).declared h,
            Text.upper (m.name a) = Text.upper (m.name b) → a = b := by
  obtain ⟨m, layer, hread, hrender, hsiblings, body, hbody, hmembers⟩ :=
    exists_of_siblingsAndMembers layerOfTwo_ctrl_status
  obtain ⟨_, h, hh, hd, hiff⟩ := member_names_distinct_iff hsiblings hrender body hbody
  exact ⟨m, layer, hread, hrender, body, hbody, hmembers, h, hh, hd,
    hiff.1 (by rw [hmembers]; decide) rfl⟩

theorem layerOfTwo_ctrl_CTRL :
    siblingsAndMembers <$> layerOfTwo "ctrl" "CTRL" =
      .ok (true, [[], [], ["CTRL", "CTRL"]]) := by
  decide +kernel

/-- **Members can clash**: registers side by side whose names differ in case only get one name for
two members of their block. -/
theorem members_can_clash :
    ¬∀ (e : Exporter) (text : String) (m : Model) (top : Nat) (output : String) (layer : Layer),
      Description.read text = .ok m → (∀ p, ((m.children p).map m.name).Nodup) →
      (e.render m top output).outcome = .ok layer →
      ∀ body ∈ layer.bodies, body.memberNames.Nodup := by
  intro hall
  obtain ⟨m, layer, hread, hrender, hsiblings, body, hbody, hmembers⟩ :=
    exists_of_siblingsAndMembers layerOfTwo_ctrl_CTRL
  have hnodup := hall inCapitals _ m 0 "soc_pkg.sv" layer hread hsiblings hrender body hbody
  rw [hmembers] at hnodup
  exact absurd hnodup (by decide)

end Exporter

end RegLayer
