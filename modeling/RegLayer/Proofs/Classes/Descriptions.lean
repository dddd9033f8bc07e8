/-
# `RegLayer.Proofs.Classes.Descriptions` — descriptions stay in the comments

A description is free text: it may hold line feeds, quotes and what looks like code.  It goes into
the comment above a class only, cut into lines each of which is made a comment of its own, so
deleting the comments deletes all of it (`withoutComments_redescribe`).

The main result compares two models that differ in descriptions and in nothing else, with
descriptions as they like.  Rendering fails for both in the same way or for none, and the two
texts are equal without their comments (`Exporter.descriptions_stay_comments`).  That the models
are rendered alike up to the descriptions of the classes is not proved again here: it is a case of
matching models (`RegLayer.Proofs.Classes.Matching`), with the change that replaces every
description.

Taken as given: nothing but that the two models differ in descriptions only.
-/
import RegLayer.Proofs.Classes.Matching
import RegLayer.Proofs.Classes.Once
import RegLayer.Proofs.Model.Alike
import RegLayer.Proofs.Text.Lines

namespace RegLayer

variable {g : Option String → Option String}

/-! ## One layer -/

namespace Classes

theorem keptLines_descriptionLines (description : Option String) :
    (descriptionLines description).flatMap Text.keptLines = [] := by
  cases description with
  | none => rfl
  | some text =>
    refine List.flatMap_eq_nil_iff.2 fun line hline => ?_
    obtain ⟨piece, hpiece, rfl⟩ := List.mem_map.1 hline
    exact Text.keptLines_comment fun h => Text.not_mem_of_mem_lines hpiece (Text.mem_of_mem_trim h)

theorem keptLines_headingLines (style : CodeStyle) (h : Heading) (base : String) :
    (headingLines style (h.redescribe g) base).flatMap Text.keptLines =
      (headingLines style h base).flatMap Text.keptLines := by
  unfold headingLines
  simp only [List.flatMap_append, keptLines_descriptionLines]
  rfl

theorem keptLines_lines (style : CodeStyle) (b : Body) :
    ((b.redescribe g).lines style).flatMap Text.keptLines =
      (b.lines style).flatMap Text.keptLines := by
  cases b with
  | register h width fields =>
    show (registerLines style (h.redescribe g) width fields).flatMap _ =
      (registerLines style h width fields).flatMap _
    unfold registerLines
    simp only [List.flatMap_append, keptLines_headingLines]
    rfl
  | block h busBytes endianness members =>
    show (blockLines style (h.redescribe g) busBytes endianness members).flatMap _ =
      (blockLines style h busBytes endianness members).flatMap _
    unfold blockLines
    simp only [List.flatMap_append, keptLines_headingLines]
    rfl
  | memory h busBytes endianness entries width code =>
    show (memoryLines style (h.redescribe g) busBytes endianness entries width code).flatMap _ =
      (memoryLines style h busBytes endianness entries width code).flatMap _
    unfold memoryLines
    simp only [List.flatMap_append, keptLines_headingLines]
    rfl

end Classes

/-- **Descriptions stay in the comments**: without its comments a layer reads the same whatever
its classes are described as. -/
theorem Layer.withoutComments_redescribe (l : Layer) :
    Text.withoutComments (l.redescribe g).text = Text.withoutComments l.text := by
  obtain ⟨first, rest, hopening⟩ : ∃ first rest, l.container.opening = first :: rest := by
    cases l.container with
    | package name => exact ⟨_, _, rfl⟩
    | header guard => exact ⟨_, _, rfl⟩
  have hbodies : ((l.bodies.map (Classes.Body.redescribe g)).flatMap
        (·.lines l.style)).flatMap Text.keptLines =
      (l.bodies.flatMap (·.lines l.style)).flatMap Text.keptLines := by
    rw [List.flatMap_map, List.flatMap_assoc, List.flatMap_assoc]
    exact List.flatMap_congr fun b _ => Classes.keptLines_lines l.style b
  have hkept : ∀ bodies : List String,
      Text.keptLines (l.banner ++ String.join
        ((l.container.opening ++ bodies ++ l.container.closing).map (· ++ "\n"))) =
      Text.keptLines (l.banner ++ first) ++
        (rest.flatMap Text.keptLines ++ bodies.flatMap Text.keptLines ++
          l.container.closing.flatMap Text.keptLines ++ [""]) := by
    intro bodies
    rw [hopening, List.cons_append, List.cons_append, Text.keptLines_append_join,
      List.flatMap_append, List.flatMap_append]
  unfold Text.withoutComments
  show Text.join "\n" (Text.keptLines (l.banner ++ String.join ((l.container.opening ++
    (l.bodies.map (Classes.Body.redescribe g)).flatMap (·.lines l.style) ++
      l.container.closing).map (· ++ "\n")))) = Text.join "\n" (Text.keptLines (l.banner ++ _))
  rw [hkept, hbodies, ← hkept]
  rfl

/-! ## Two models -/

/-- The entry without a description. -/
def Entry.undescribed (e : Entry) : Entry :=
  { e with node := e.node.redescribe fun _ => none }

/-- The models differ in the descriptions of their nodes only. -/
structure Model.SameButDescriptions (m m' : Model) : Prop where
  entries_eq : m'.entries.map Entry.undescribed = m.entries.map Entry.undescribed
  labels_eq : m'.labels = m.labels
  roots_eq : m'.roots = m.roots

namespace Model.SameButDescriptions

variable {m m' : Model} (hsame : m.SameButDescriptions m')

include hsame

theorem entry_eq {α : Type} {f : Entry → α} (hf : ∀ e : Entry, f e.undescribed = f e) (h : Nat) :
    m'.entries[h]?.map f = m.entries[h]?.map f := by
  have hread : ∀ entries : Array Entry,
      entries[h]?.map f = (entries.map Entry.undescribed)[h]?.map f := by
    intro entries
    rw [Array.getElem?_map, Option.map_map]
    exact congrArg (Option.map · _) (funext fun e => (hf e).symm)
  rw [hread, hread m.entries, hsame.entries_eq]

theorem matches_none (top : Nat) : Matches (fun _ => none) m m' top where
  node_eq h _ := by
    have hnode : ∀ m : Model, (m.node h).redescribe (fun _ => none) =
        (m.entries[h]?.map fun e => e.node.redescribe fun _ => none).getD .blank := by
      intro m
      unfold node
      cases m.entries[h]? <;> rfl
    rw [hnode, hnode m, hsame.entry_eq (fun _ => rfl)]
  parent_eq h _ := by
    have hparent : ∀ m : Model, m.parent h = (m.entries[h]?.map (·.parent)).join := by
      intro m
      unfold parent
      cases m.entries[h]? <;> rfl
    rw [hparent, hparent m, hsame.entry_eq (fun _ => rfl)]
  children_eq h _ := by
    have hchildren : ∀ m : Model,
        m.children h = (m.entries[h]?.map (·.children.toList)).getD [] := by
      intro m
      unfold children
      cases m.entries[h]? <;> rfl
    rw [hchildren, hchildren m, hsame.entry_eq (fun _ => rfl)]

end Model.SameButDescriptions

/-- **Descriptions cannot influence the code**: of two models that differ in descriptions only,
either both fail to render in the same way, or both come to layers with the same counts whose texts
are equal up to their comments. -/
theorem Exporter.descriptions_stay_comments (e : Exporter) {m m' : Model}
    (hsame : m.SameButDescriptions m') (top : Nat) (output : String) :
    (∃ failure, (e.render m top output).outcome = .error failure ∧
      (e.render m' top output).outcome = .error failure) ∨
    ∃ l l' : Layer, (e.render m top output).outcome = .ok l ∧
      (e.render m' top output).outcome = .ok l' ∧
      l'.classes = l.classes ∧ l'.reused = l.reused ∧
      Text.withoutComments l'.text = Text.withoutComments l.text := by
  have hrender := congrArg Report.outcome ((hsame.matches_none top).redescribe_render e output)
  rw [outcome_map, outcome_map] at hrender
  cases hm : (e.render m top output).outcome with
  | error failure =>
    rw [hm] at hrender
    cases hm' : (e.render m' top output).outcome with
    | error failure' =>
      rw [hm'] at hrender
      exact Or.inl ⟨failure, rfl, congrArg Except.error (Except.error.inj hrender)⟩
    | ok l' =>
      rw [hm'] at hrender
      cases hrender
  | ok l =>
    rw [hm] at hrender
    obtain ⟨l', hm', hl⟩ := map_eq_ok.1 hrender
    have hclasses : (l'.redescribe fun _ => none).classes = (l.redescribe fun _ => none).classes :=
      congrArg Layer.classes hl
    have hreused : (l'.redescribe fun _ => none).reused = (l.redescribe fun _ => none).reused :=
      congrArg Layer.reused hl
    have htext : Text.withoutComments l'.text = Text.withoutComments l.text := by
      rw [← l'.withoutComments_redescribe, hl, l.withoutComments_redescribe]
    exact Or.inr ⟨l, l', rfl, hm', hclasses, hreused, htext⟩

/-- A description that tries to leave its comment. -/
def unruly : String :=
  "`define RO \r\n */ endclass\n\n// \"class\" fake;\nendpackage"

/-- The design of two peripherals with this description for every component below the map. -/
def unrulyUarts : Model :=
  soc ([uart "uart0" 0, uart "uart1" 0x100, ram].map
    (Tree.map (Node.redescribe fun _ => some unruly)))

deriving instance DecidableEq for Entry

theorem Exporter.descriptions_stay_comments_twinUarts :
    ∃ l l' : Layer, (plainExporter.render twinUarts 0 "soc_pkg.sv").outcome = .ok l ∧
      (plainExporter.render unrulyUarts 0 "soc_pkg.sv").outcome = .ok l' ∧
      l'.classes = 5 ∧ l.text ≠ l'.text ∧
      Text.withoutComments l'.text = Text.withoutComments l.text := by
  have hsame : twinUarts.SameButDescriptions unrulyUarts :=
    ⟨by decide +kernel, by decide +kernel, by decide +kernel⟩
  obtain ⟨l, hl, hcounts⟩ := map_eq_ok.1 render_twinUarts
  rcases plainExporter.descriptions_stay_comments hsame 0 "soc_pkg.sv" with
    ⟨failure, herror, _⟩ | ⟨l₁, l', hl₁, hl', hclasses, _, htext⟩
  · rw [hl] at herror
    cases herror
  · obtain rfl := Except.ok.inj (hl.symm.trans hl₁)
    have hdiffer : (plainExporter.render twinUarts 0 "soc_pkg.sv").outcome.map Layer.text ≠
        (plainExporter.render unrulyUarts 0 "soc_pkg.sv").outcome.map Layer.text := by
      decide +kernel
    refine ⟨l, l', hl, hl', hclasses.trans (congrArg Prod.fst hcounts), ?_, htext⟩
    intro htexts
    rw [hl, hl'] at hdiffer
    exact hdiffer (congrArg Except.ok htexts)

end RegLayer
