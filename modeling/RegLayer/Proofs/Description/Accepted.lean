/-
# `RegLayer.Proofs.Description.Accepted` — what follows the rules is read

A tag that was read follows the rules for tags (`decoded_of_node`).  Here is the converse, reader
by reader: what a rule allows, its reader accepts.  The rules are nearly all that is asked of a
tag; the one thing more is that the last bit of a field is looked at even where its width is
given, and has to be a number then, too (`LastBitLegible`).

With this `Legible` is exactly what reading a tag accepts (`legible_of_node`, `loads_of_legible`),
and the documents that are read are exactly those whose tags are legible and stand where they may
(`exists_ofElement_iff`).  The descent needs nothing else: declarations can always be met.
-/
import RegLayer.Proofs.Description.Mirror

namespace RegLayer

open Xml

namespace Description

variable {tag : Tag}

/-! ## Attributes -/

section Attributes

variable {α : Type} {key : String} {Means : String → α → Prop}

theorem required_of_attribute {text : String} (h : tag.attribute? key = some text) :
    required tag key = .ok text := by
  simp only [required, h]

theorem optional_of_saidAny {read : String → Except Failure α} {o : Option α}
    (hread : ∀ text a, Means text a → read text = .ok a) (h : SaidAny tag key Means o) :
    optional tag key read = .ok o := by
  rw [SaidAny] at h
  unfold optional
  generalize tag.attribute? key = text at h ⊢
  cases h with
  | none => rfl
  | some hmeans => exact map_eq_ok.2 ⟨_, hread _ _ hmeans, rfl⟩

theorem Said.exists_any {default_ a : α} (h : Said tag key Means default_ a) :
    ∃ o, SaidAny tag key Means o ∧ o.getD default_ = a := by
  cases h with
  | missing hnone => exact ⟨none, by rw [SaidAny, hnone]; exact .none, rfl⟩
  | given hsome hmeans => exact ⟨some a, by rw [SaidAny, hsome]; exact .some hmeans, rfl⟩

theorem Stated.any {a : α} (h : Stated tag key Means a) : SaidAny tag key Means (some a) := by
  obtain ⟨text, htext, hmeans⟩ := h
  rw [SaidAny, htext]
  exact .some hmeans

theorem SaidAny.of_missing (h : tag.attribute? key = none) : SaidAny tag key Means none := by
  rw [SaidAny, h]
  exact .none

end Attributes

section Readers

variable {key : String}

theorem number?_of_saidAny {o : Option UInt64} (h : SaidAny tag key IsNumber o) :
    number? tag key = .ok o :=
  optional_of_saidAny (fun _ _ hnumber => hnumber) h

theorem number_of_stated {n : UInt64} (h : Stated tag key IsNumber n) :
    number tag key = .ok n := by
  obtain ⟨text, htext, hn⟩ := h
  exact bind_eq_ok.2 ⟨text, required_of_attribute htext, hn⟩

theorem bits_of_toNat {n : UInt64} {w : UInt32} (h : w.toNat = n.toNat) :
    bits tag key n = .ok w := by
  have hlt : n.toNat < UInt32.size := h ▸ w.toNat_lt
  have hword : Text.word32? n.toNat = some w := by
    rw [Text.word32?, if_pos hlt, ← h, UInt32.ofNat_toNat]
  simp only [bits, hword]

theorem width?_of_saidAny {o : Option UInt32} (h : SaidAny tag key IsWidth o) :
    width? tag key = .ok o := by
  rw [SaidAny] at h
  generalize htext : tag.attribute? key = text at h
  cases h with
  | none => exact bind_eq_ok.2 ⟨none, number?_of_saidAny (.of_missing htext), rfl⟩
  | some hwidth =>
    obtain ⟨⟨n, hn, hval⟩, hpos⟩ := hwidth
    refine bind_eq_ok.2 ⟨some n, number?_of_saidAny (Stated.any ⟨_, htext, hn⟩), ?_⟩
    have hzero : n ≠ 0 := by
      rintro rfl
      exact absurd hval (by simpa using Nat.ne_of_gt hpos)
    simp only [if_neg hzero, bits_of_toNat hval]
    rfl

theorem readFlag_of_isFlag {text : String} {b : Bool} (h : IsFlag text b) :
    readFlag key text = .ok b := by
  cases h <;> rfl

theorem flag_of_said {b : Bool} (h : Said tag key IsFlag false b) : flag tag key = .ok b := by
  obtain ⟨o, ho, rfl⟩ := h.exists_any
  exact bind_eq_ok.2 ⟨o, optional_of_saidAny (fun _ _ => readFlag_of_isFlag) ho, rfl⟩

theorem readWord_of_isWord {α : Type} {ofWord? : String → Option α} {refusal : String → Fault}
    {text : String} {a : α} (h : IsWord ofWord? text a) :
    readWord ofWord? refusal text = .ok a := by
  rw [IsWord] at h
  simp only [readWord, h]

theorem policy_of_said {p : Policy} (h : Said tag "sw" (IsWord Policy.ofWord?) .readWrite p) :
    policy tag = .ok p := by
  obtain ⟨o, ho, rfl⟩ := h.exists_any
  exact bind_eq_ok.2 ⟨o, optional_of_saidAny (fun _ _ => readWord_of_isWord) ho, rfl⟩

end Readers

/-! ## Kinds -/

theorem EndiannessOf.read {endianness : Endianness} (h : EndiannessOf tag endianness) :
    Description.endianness tag = .ok endianness := by
  cases h with
  | big hbig => exact bind_eq_ok.2 ⟨true, flag_of_said hbig, rfl⟩
  | little hbig hlittle =>
    exact bind_eq_ok.2 ⟨false, flag_of_said hbig,
      bind_eq_ok.2 ⟨true, flag_of_said hlittle, rfl⟩⟩
  | unspecified hbig hlittle =>
    exact bind_eq_ok.2 ⟨false, flag_of_said hbig,
      bind_eq_ok.2 ⟨false, flag_of_said hlittle, rfl⟩⟩

/-- The last bit of a field is a number, if it is given. -/
def LastBitLegible (tag : Tag) : Prop :=
  ∃ o, SaidAny tag "msb" IsNumber o

theorem FieldWidthOf.read {lsb width : UInt32} (h : FieldWidthOf tag lsb width)
    (hmsb : LastBitLegible tag) : fieldWidth tag lsb = .ok width := by
  obtain ⟨msb?, hmsb⟩ := hmsb
  cases h with
  | given hwidth =>
    exact bind_eq_ok.2 ⟨some width, width?_of_saidAny hwidth.any,
      bind_eq_ok.2 ⟨msb?, number?_of_saidAny hmsb, rfl⟩⟩
  | single hwidth hnone =>
    exact bind_eq_ok.2 ⟨none, width?_of_saidAny (.of_missing hwidth),
      bind_eq_ok.2 ⟨none, number?_of_saidAny (.of_missing hnone), rfl⟩⟩
  | @upTo msb _ hwidth hlast hle hval =>
    obtain ⟨text, htext, n, hn, hbits⟩ := hlast
    refine bind_eq_ok.2 ⟨none, width?_of_saidAny (.of_missing hwidth),
      bind_eq_ok.2 ⟨some n, number?_of_saidAny (Stated.any ⟨text, htext, hn⟩), ?_⟩⟩
    have hspan : Checked.sub32 msb lsb = .ok (msb - lsb) :=
      Checked.within_eq_ok_iff.2 ⟨hle, rfl⟩
    have hone : (1 : UInt32).toNat = 1 := rfl
    have hwidth' : Checked.add32 (msb - lsb) 1 = .ok width := by
      rw [Checked.add32_eq_ok_iff, UInt32.toNat_sub_of_le _ _ (UInt32.le_iff_toNat_le.2 hle)]
      omega
    simp only [widthUpTo, if_neg (show ¬n.toNat < lsb.toNat by omega), bits_of_toNat hbits]
    exact bind_eq_ok.2 ⟨msb, rfl, bind_eq_ok.2 ⟨msb - lsb, hspan, hwidth'⟩⟩

theorem FieldOf.read {spec : FieldSpec} (h : FieldOf tag spec) (hmsb : LastBitLegible tag) :
    fieldSpec tag = .ok spec := by
  obtain ⟨text, htext, n, hn, hval⟩ := h.lsb
  simp only [fieldSpec, bind_eq_ok, pure_eq_ok]
  exact ⟨n, number_of_stated ⟨text, htext, hn⟩, spec.lsb, bits_of_toNat hval,
    spec.width, h.width.read hmsb, spec.policy, policy_of_said h.policy,
    spec.onRead, optional_of_saidAny (fun _ _ => readWord_of_isWord) h.onRead,
    spec.onWrite, optional_of_saidAny (fun _ _ => readWord_of_isWord) h.onWrite,
    spec.reset, number?_of_saidAny h.reset, spec.isVolatile, flag_of_said h.isVolatile, rfl⟩

theorem wordWidth_of_stated {width : UInt32} (h : Stated tag "memwidth" IsWidth width) :
    wordWidth tag = .ok width :=
  bind_eq_ok.2 ⟨some width, width?_of_saidAny h.any, rfl⟩

theorem KindOf.read {kind : Kind} (h : KindOf tag kind)
    (hmsb : tag.name = "field" → LastBitLegible tag) : Description.kind tag = .ok kind := by
  cases h with
  | addrmap hname hendianness hbridge =>
    simp only [Description.kind, hname, hendianness.read, flag_of_said hbridge]
    rfl
  | regfile hname =>
    simp only [Description.kind, hname]
    rfl
  | reg hname hwidth haccess =>
    obtain ⟨o, ho, rfl⟩ := hwidth.exists_any
    obtain ⟨o', ho', rfl⟩ := haccess.exists_any
    simp only [Description.kind, hname, width?_of_saidAny ho, width?_of_saidAny ho']
    rfl
  | mem hname hentries hwidth hpolicy =>
    simp only [Description.kind, hname, number_of_stated hentries, wordWidth_of_stated hwidth,
      policy_of_said hpolicy]
    rfl
  | field hname hspec =>
    simp only [Description.kind, hname, hspec.read (hmsb hname)]
    rfl
  | signal hname =>
    simp only [Description.kind, hname]
    rfl

theorem dims_of_saidAny {o : Option (List UInt64)} (h : SaidAny tag "dims" AreNumbers o) :
    optional tag "dims" readDims = .ok o :=
  optional_of_saidAny (fun _ _ hnumbers => mapM_eq_ok.2 hnumbers) h

theorem ArrayOf.read {array : Option ArrayShape} (h : ArrayOf tag array) (name : String) :
    array? tag name = .ok array := by
  cases h with
  | single hnone =>
    exact bind_eq_ok.2 ⟨none, dims_of_saidAny (.of_missing hnone), rfl⟩
  | @array shape hdims hstride =>
    exact bind_eq_ok.2 ⟨some shape.dims, dims_of_saidAny hdims.any,
      bind_eq_ok.2 ⟨some shape.stride, number?_of_saidAny hstride.any, rfl⟩⟩

/-! ## Components -/

/-- The tag describes the component, and if it is a field's, its last bit is legible. -/
structure Legible (tag : Tag) (n : Node) : Prop extends Decoded tag n where
  lastBit : tag.name = "field" → LastBitLegible tag

theorem checkPlace_of_mayStand {place : Option Place} {element name : String} {kind : Kind}
    (h : kind.MayStand (place.map (·.kind))) : checkPlace place element name kind = .ok () := by
  cases place with
  | none => exact if_pos h
  | some around => exact if_pos (beq_iff_eq.2 h.symm)

theorem exists_loads_scope? (tag : Tag) (known : Declarations) :
    ∃ scope later, Loads (scope? tag) known scope later := by
  unfold scope?
  split
  · exact ⟨none, known, rfl⟩
  · split
    · exact ⟨some .root, known, rfl⟩
    · exact ⟨_, _, rfl⟩

theorem exists_loads_decl? (tag : Tag) (known : Declarations) :
    ∃ decl later, Loads (decl? tag) known decl later := by
  unfold decl?
  split
  · exact ⟨none, known, rfl⟩
  · exact ⟨_, _, rfl⟩

/-- **A legible tag is read** as the component that it describes, wherever that may stand. -/
theorem loads_of_legible {place : Option Place} {n : Node} (h : Legible tag n)
    (hplace : n.kind.MayStand (place.map (·.kind))) (known : Declarations) :
    ∃ scope decl later,
      Loads (node place tag) known { n with scope := scope, decl := decl } later := by
  obtain ⟨scope, mid, hscope⟩ := exists_loads_scope? tag known
  obtain ⟨decl, later, hdecl⟩ := exists_loads_decl? tag mid
  obtain ⟨offset, hoffset, heq⟩ := h.offset.exists_any
  refine ⟨scope, decl, later, ?_⟩
  simp only [node, loads_bind, loads_lift, loads_pure]
  refine ⟨n.name, known, ⟨required_of_attribute h.name, rfl⟩,
    n.kind, known, ⟨h.kind.read h.lastBit, rfl⟩,
    (), known, ⟨checkPlace_of_mayStand hplace, rfl⟩, scope, mid, hscope, decl, later, hdecl,
    offset, later, ⟨number?_of_saidAny hoffset, rfl⟩,
    n.array, later, ⟨h.array.read n.name, rfl⟩, ?_, rfl⟩
  rw [heq, h.description, h.typeName]

/-- A tag that was read is legible. -/
theorem legible_of_node {place : Option Place} {known later : Declarations} {n : Node}
    (h : Loads (node place tag) known n later) : Legible tag n := by
  refine ⟨(decoded_of_node h).1, fun hname => ?_⟩
  simp only [node, loads_bind, loads_lift] at h
  obtain ⟨_, _, _, kind, _, ⟨hkind, _⟩, _⟩ := h
  simp only [Description.kind, hname, bind_eq_ok] at hkind
  obtain ⟨spec, hspec, _⟩ := hkind
  simp only [fieldSpec, fieldWidth, bind_eq_ok] at hspec
  obtain ⟨_, _, _, _, _, ⟨_, _, msb?, hmsb, _⟩, _⟩ := hspec
  exact ⟨msb?, saidAny_of_number? hmsb⟩

mutual

theorem exists_loads_component (place : Option Place) :
    ∀ (e : Element) {t : Tree Node} (known : Declarations), e.Agree Legible t →
      t.label.kind.MayStand (place.map (·.kind)) → t.WellPlaced →
        ∃ t' later, Loads (component place e) known t' later
  | .node tag inside, .node n ts, known, hagree, hplace, hwell => by
    obtain ⟨hlegible, hagrees⟩ := Tree.agree_node_iff.1 hagree
    obtain ⟨scope, decl, mid, hn⟩ := loads_of_legible hlegible hplace known
    have hinside : ∀ t ∈ ts, t.label.kind.MayStand (some n.kind) ∧ t.WellPlaced := fun t ht =>
      ⟨hwell _ .self t ht, fun s hs => hwell s (.child ht hs)⟩
    obtain ⟨us, later, hus⟩ := exists_loads_components
      (some (placeInside place { n with scope := scope, decl := decl })) inside mid hagrees hinside
    refine ⟨.node { n with scope := scope, decl := decl } us, later, ?_⟩
    simp only [component, loads_bind, loads_pure]
    exact ⟨_, mid, hn, us, later, hus, rfl, rfl⟩

theorem exists_loads_components (place : Option Place) :
    ∀ (es : List Element) {ts : List (Tree Node)} (known : Declarations),
      List.Forall₂ (Tree.Agree Legible) es ts →
      (∀ t ∈ ts, t.label.kind.MayStand (place.map (·.kind)) ∧ t.WellPlaced) →
        ∃ ts' later, Loads (components place es) known ts' later
  | [], _, known, _, _ => ⟨[], known, by simp only [components, loads_pure, and_self]⟩
  | e :: es, t :: ts, known, hagrees, hplaced => by
    obtain ⟨hagree, hrest⟩ := List.forall₂_cons.1 hagrees
    obtain ⟨⟨hplace, hwell⟩, hplaced⟩ := List.forall_mem_cons.1 hplaced
    obtain ⟨u, mid, hu⟩ := exists_loads_component place e known hagree hplace hwell
    obtain ⟨us, later, hus⟩ := exists_loads_components place es mid hrest hplaced
    refine ⟨u :: us, later, ?_⟩
    simp only [components, loads_bind, loads_pure]
    exact ⟨u, mid, hu, us, later, hus, rfl, rfl⟩
  | _ :: _, [], _, h, _ => nomatch h

end

mutual

theorem legible_component (place : Option Place) :
    ∀ (e : Element) {known later : Declarations} {t : Tree Node},
      Loads (component place e) known t later → e.Agree Legible t
  | .node tag inside, known, later, t, h => by
    simp only [component, loads_bind, loads_pure] at h
    obtain ⟨n, mid, hn, ts, _, hts, rfl, rfl⟩ := h
    exact .node (legible_of_node hn) (legible_components (some (placeInside place n)) inside hts)

theorem legible_components (place : Option Place) :
    ∀ (es : List Element) {known later : Declarations} {ts : List (Tree Node)},
      Loads (components place es) known ts later → List.Forall₂ (Tree.Agree Legible) es ts
  | [], known, later, ts, h => by
    simp only [components, loads_pure] at h
    obtain ⟨rfl, rfl⟩ := h
    exact .nil
  | e :: es, known, later, ts, h => by
    simp only [components, loads_bind, loads_pure] at h
    obtain ⟨t, mid, ht, us, _, hus, rfl, rfl⟩ := h
    exact .cons (legible_component place e ht) (legible_components place es hus)

end

/-! ## Documents -/

/-- The element is a model with components in it, all tags in it are legible, and the components
stand where they may. -/
structure Describes (root : Element) : Prop where
  name : root.label.name = "model"
  nonempty : root.children ≠ []
  components : ∃ ts : List (Tree Node), List.Forall₂ (Tree.Agree Legible) root.children ts ∧
    ∀ t ∈ ts, t.label.kind.MayStand none ∧ t.WellPlaced

/-- **A document is read exactly if it describes a design.** -/
theorem exists_ofElement_iff {root : Element} :
    (∃ m, ofElement root = .ok m) ↔ Describes root := by
  constructor
  · rintro ⟨m, hread⟩
    obtain ⟨hname, d, ts, hloads, hne, _⟩ := exists_forest_of_ofElement hread
    have hagree := legible_components none root.children hloads
    refine ⟨hname, ?_, ts, hagree, (read_components none root.children hloads).2⟩
    intro hnil
    rw [hnil] at hagree
    cases hagree
    exact hne rfl
  · rintro ⟨hname, hne, ts, hagree, hplaced⟩
    obtain ⟨us, later, hloads⟩ := exists_loads_components none root.children .empty hagree hplaced
    have hus : us ≠ [] := by
      rintro rfl
      have hlength := (legible_components none root.children hloads).length_eq
      exact hne (List.eq_nil_of_length_eq_zero hlength)
    refine ⟨Model.ofForest later us, ?_⟩
    simp only [ofElement, hname, bne_self_eq_false, Bool.false_eq_true, if_false]
    refine bind_eq_ok.2 ⟨(us, later), hloads, ?_⟩
    simp only [List.isEmpty_iff, if_neg hus]
    rfl

end Description

end RegLayer
