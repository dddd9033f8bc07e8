/-
# `RegLayer.Proofs.Description.Totality` — how reading a document can fail

A document that does not describe a design is refused with a fault, and the fault is one of the
design, unless a word for an access is not known.  Each reader is shown to fail in no other way
(`Refusal`), up to the whole document (`failsOnly_ofElement`).

Only one computation can leave its word: the width of a field that is given by its ends, which is
counted in 32 bits after both ends were found to have 32 bits.  A field from bit 0 to the last bit
of a word has one bit too many (`fullRegister`), and reading it aborts.

Apart from such a field reading is total, and a field whose ends are given is read with the bits
between them exactly where a word can hold them (`reading_is_total`).  That result takes as given
only that no tag of the document gives these two ends; documents are otherwise arbitrary,
well-formed as designs or not.
-/
import Mathlib.Algebra.Group.Nat.Defs
import RegLayer.Proofs.Description.Accepted

namespace RegLayer

open Xml

namespace Description

variable {tag : Tag}

/-! ## Fields given by their ends -/

/-- The tag is of a field that lies between these bits, and gives no width. -/
structure Spans (tag : Tag) (lsb msb : UInt64) : Prop where
  name : tag.name = "field"
  lsb : Stated tag "lsb" IsNumber lsb
  msb : Stated tag "msb" IsNumber msb
  noWidth : tag.attribute? "width" = none

/-- The bits are in order, and their places and their number have 32 bits. -/
def SpanFits (lsb msb : UInt64) : Prop :=
  lsb.toNat ≤ msb.toNat ∧ msb.toNat ≤ 2 ^ 32 - 1 ∧ msb.toNat - lsb.toNat + 1 ≤ 2 ^ 32 - 1

instance (lsb msb : UInt64) : Decidable (SpanFits lsb msb) :=
  inferInstanceAs (Decidable (_ ∧ _ ∧ _))

/-- The last bit that a word of 32 bits can number. -/
def lastBit : UInt64 := 0xffffffff

/-- The words for accesses that the tag gives are known. -/
structure KnownWords (tag : Tag) : Prop where
  policy : ∃ o, SaidAny tag "sw" (IsWord Policy.ofWord?) o
  onRead : ∃ o, SaidAny tag "onread" (IsWord ReadEffect.ofWord?) o
  onWrite : ∃ o, SaidAny tag "onwrite" (IsWord WriteEffect.ofWord?) o

theorem knownWords_of_missing (hpolicy : tag.attribute? "sw" = none)
    (hread : tag.attribute? "onread" = none) (hwrite : tag.attribute? "onwrite" = none) :
    KnownWords tag :=
  ⟨⟨none, .of_missing hpolicy⟩, ⟨none, .of_missing hread⟩, ⟨none, .of_missing hwrite⟩⟩

/-- The tag of a field is legible apart from the bits of the field. -/
structure LegibleBesideBits (tag : Tag) : Prop extends KnownWords tag where
  name : ∃ name, tag.attribute? "name" = some name
  reset : ∃ o, SaidAny tag "reset" IsNumber o
  isVolatile : ∃ b, Said tag "volatile" IsFlag false b
  offset : ∃ n, Said tag "offset" IsNumber 0 n
  array : ∃ shape, ArrayOf tag shape

/-- How a tag can be refused: with a fault of the design, with a fault about a word for an access
that is not known, or at the number of bits of a field that has them all. -/
inductive Refusal (tag : Tag) : Failure → Prop
  | model {f : Fault} : f.kind = .model → Refusal tag (.fault f)
  | word {f : Fault} : f.kind = .unrecognizedAccessPolicy → ¬KnownWords tag → Refusal tag (.fault f)
  | full : Spans tag 0 lastBit → Refusal tag (.abort .overflow)

theorem Refusal.of_model {e : Failure} (h : e.OfModel) : Refusal tag e := by
  obtain ⟨f, rfl, hkind⟩ := h.exists_fault
  exact .model hkind

theorem Refusal.ofModel {e : Failure} (h : Refusal tag e) (hwords : KnownWords tag)
    (hroom : ¬Spans tag 0 lastBit) : e.OfModel := by
  cases h with
  | model hkind => exact hkind
  | word _ hunknown => exact absurd hwords hunknown
  | full hspans => exact absurd hspans hroom

/-! ## Attributes -/

section Attributes

variable {key : String}

theorem failsOnly_required : FailsOnly Failure.OfModel (required tag key) := by
  unfold required
  split
  · exact .ok _
  · exact .error rfl

theorem failsOnly_optional {α : Type} {P : Failure → Prop} {read : String → Except Failure α}
    (hread : ∀ text, FailsOnly P (read text)) : FailsOnly P (optional tag key read) := by
  unfold optional
  split
  · exact (hread _).map _
  · exact .ok none

theorem failsOnly_readNumber (text : String) :
    FailsOnly Failure.OfModel (Text.readNumber text) := by
  simp only [Text.readNumber]
  split
  · exact .ok _
  · exact .error rfl

theorem failsOnly_number? : FailsOnly Failure.OfModel (number? tag key) :=
  failsOnly_optional failsOnly_readNumber

theorem failsOnly_number : FailsOnly Failure.OfModel (number tag key) :=
  failsOnly_required.bind fun text _ => failsOnly_readNumber text

theorem failsOnly_bits (n : UInt64) : FailsOnly Failure.OfModel (bits tag key n) := by
  unfold bits
  split
  · exact .ok _
  · exact .error rfl

theorem failsOnly_width? : FailsOnly Failure.OfModel (width? tag key) := by
  refine failsOnly_number?.bind fun number _ => ?_
  cases number with
  | none => exact .ok none
  | some n =>
    dsimp only
    split
    · exact .error rfl
    · exact (failsOnly_bits n).map some

theorem failsOnly_flag : FailsOnly Failure.OfModel (flag tag key) := by
  have hread : ∀ text, FailsOnly Failure.OfModel (readFlag key text) := fun text => by
    unfold readFlag
    split
    · exact .ok true
    · exact .ok true
    · exact .ok false
    · exact .ok false
    · exact .error rfl
  exact (failsOnly_optional hread).bind fun _ _ => .ok _

theorem failsOnly_word {α : Type} {ofWord? : String → Option α} {refusal : String → Fault}
    (hkind : ∀ text, (refusal text).kind = .unrecognizedAccessPolicy)
    (hwords : KnownWords tag → ∃ o, SaidAny tag key (IsWord ofWord?) o) :
    FailsOnly (Refusal tag) (optional tag key (readWord ofWord? refusal)) := by
  intro e he
  have hunknown : ¬KnownWords tag := fun hknown => by
    obtain ⟨o, ho⟩ := hwords hknown
    have hok : optional tag key (readWord ofWord? refusal) = .ok o :=
      optional_of_saidAny (fun _ _ => readWord_of_isWord) ho
    exact nomatch hok.symm.trans he
  have hfault : FailsOnly (fun e => ∃ f : Fault, e = .fault f ∧ f.kind = .unrecognizedAccessPolicy)
      (optional tag key (readWord ofWord? refusal)) := by
    refine failsOnly_optional fun text => ?_
    unfold readWord
    split
    · exact .ok _
    · exact .error ⟨_, rfl, hkind _⟩
  obtain ⟨f, rfl, hf⟩ := hfault e he
  exact .word hf hunknown

theorem failsOnly_policy : FailsOnly (Refusal tag) (policy tag) :=
  (failsOnly_word (fun _ => rfl) KnownWords.policy).bind fun _ _ => .ok _

end Attributes

/-! ## Kinds -/

theorem failsOnly_endianness : FailsOnly Failure.OfModel (endianness tag) := by
  refine failsOnly_flag.bind fun big _ => ?_
  cases big with
  | true => exact .ok _
  | false =>
    refine failsOnly_flag.bind fun little _ => ?_
    cases little with
    | true => exact .ok _
    | false => exact .ok _

theorem failsOnly_widthUpTo (lsb : UInt32) (msb : UInt64) :
    FailsOnly (fun e => e.OfModel ∨ e = .abort .overflow ∧ lsb = 0 ∧ msb = lastBit)
      (widthUpTo tag lsb msb) := by
  unfold widthUpTo
  split
  · exact .error (.inl rfl)
  · next hle =>
    refine ((failsOnly_bits msb).imp fun _ => .inl).bind fun last hlast => ?_
    have hval : last.toNat = msb.toNat := toNat_of_bits hlast
    refine FailsOnly.bind ?_ fun span hspan => ?_
    · refine (Checked.failsOnly_within _).imp fun e he => ?_
      exact absurd (show lsb.toNat ≤ last.toNat by omega) he.2
    · refine (Checked.failsOnly_within _).imp fun e he => .inr ⟨he.1, ?_⟩
      rw [Checked.sub32_eq_ok_iff] at hspan
      have hlt : last.toNat < 2 ^ 32 := last.toNat_lt
      -- Both ends have 32 bits, so only from bit 0 to the last one are there more bits than that.
      have hbeyond : ¬span.toNat + 1 < 2 ^ 32 := he.2
      refine ⟨UInt32.toNat_inj.1 ?_, UInt64.toNat_inj.1 ?_⟩
      · show lsb.toNat = 0
        omega
      · show msb.toNat = 2 ^ 32 - 1
        omega

theorem failsOnly_fieldWidth (lsb : UInt32) :
    FailsOnly (fun e => e.OfModel ∨ e = .abort .overflow ∧ lsb = 0 ∧
        tag.attribute? "width" = none ∧ Stated tag "msb" IsNumber lastBit)
      (fieldWidth tag lsb) := by
  refine (failsOnly_width?.imp fun _ => .inl).bind fun width hwidth => ?_
  refine (failsOnly_number?.imp fun _ => .inl).bind fun msb hmsb => ?_
  match width, msb with
  | some w, _ => exact .ok w
  | none, none => exact .ok 1
  | none, some msb =>
    refine (failsOnly_widthUpTo lsb msb).imp fun e he => he.imp_right ?_
    rintro ⟨hoverflow, hlsb, rfl⟩
    exact ⟨hoverflow, hlsb, (saidAny_of_width? hwidth).missing, .of_any (saidAny_of_number? hmsb)⟩

theorem failsOnly_fieldSpec (hname : tag.name = "field") :
    FailsOnly (Refusal tag) (fieldSpec tag) := by
  have hmodel : ∀ {α : Type} {r : Except Failure α}, FailsOnly Failure.OfModel r →
      FailsOnly (Refusal tag) r := fun h => h.imp fun _ => .of_model
  refine (hmodel failsOnly_number).bind fun n hn => ?_
  refine (hmodel (failsOnly_bits n)).bind fun lsb hlsb => ?_
  refine FailsOnly.bind ((failsOnly_fieldWidth lsb).imp fun e he => ?_) fun width _ => ?_
  · rcases he with he | ⟨rfl, rfl, hwidth, hmsb⟩
    · exact .of_model he
    · have hzero : n = 0 := UInt64.toNat_inj.1 (toNat_of_bits hlsb).symm
      exact .full ⟨hname, hzero ▸ stated_of_number hn, hmsb, hwidth⟩
  refine failsOnly_policy.bind fun _ _ => ?_
  refine (failsOnly_word (fun _ => rfl) KnownWords.onRead).bind fun _ _ => ?_
  refine (failsOnly_word (fun _ => rfl) KnownWords.onWrite).bind fun _ _ => ?_
  refine (hmodel failsOnly_number?).bind fun _ _ => ?_
  exact (hmodel failsOnly_flag).bind fun _ _ => .ok _

theorem failsOnly_wordWidth : FailsOnly Failure.OfModel (wordWidth tag) := by
  refine failsOnly_width?.bind fun o _ => ?_
  cases o with
  | none => exact .error rfl
  | some w => exact .ok w

theorem failsOnly_kind : FailsOnly (Refusal tag) (kind tag) := by
  have hmodel : ∀ {α : Type} {r : Except Failure α}, FailsOnly Failure.OfModel r →
      FailsOnly (Refusal tag) r := fun h => h.imp fun _ => .of_model
  unfold kind
  split
  · exact hmodel (failsOnly_endianness.bind fun _ _ => failsOnly_flag.bind fun _ _ => .ok _)
  · exact .ok _
  · exact hmodel (failsOnly_width?.bind fun _ _ => failsOnly_width?.bind fun _ _ => .ok _)
  · exact (hmodel failsOnly_number).bind fun _ _ => (hmodel failsOnly_wordWidth).bind fun _ _ =>
      failsOnly_policy.bind fun _ _ => .ok _
  · next hname => exact (failsOnly_fieldSpec hname).bind fun _ _ => .ok _
  · exact .ok _
  · exact .error (.model rfl)

theorem failsOnly_array? (name : String) : FailsOnly Failure.OfModel (array? tag name) := by
  refine FailsOnly.bind (failsOnly_optional fun text => ?_) fun dims _ => ?_
  · exact FailsOnly.mapM fun piece _ => failsOnly_readNumber piece
  · cases dims with
    | none => exact .ok none
    | some dims =>
      refine failsOnly_number?.bind fun stride _ => ?_
      cases stride with
      | none => exact .error rfl
      | some stride => exact .ok _

/-! ## Components -/

/-- Wherever it starts, reading fails in these ways only. -/
def LoadFails {α : Type} (P : Failure → Prop) (x : Loading α) : Prop :=
  ∀ known, FailsOnly P (x.run known)

section LoadFails

variable {α β : Type} {P : Failure → Prop} {x : Loading α} {f : α → Loading β}

theorem loadFails_pure (a : α) : LoadFails P (pure a : Loading α) :=
  fun known => .ok (a, known)

theorem LoadFails.bind (hx : LoadFails P x) (hf : ∀ a, LoadFails P (f a)) :
    LoadFails P (x >>= f) := by
  intro known
  rw [StateT.run_bind]
  exact (hx known).bind fun p _ => hf p.1 p.2

theorem loadFails_lift {r : Except Failure α} (h : FailsOnly P r) :
    LoadFails P (liftM r : Loading α) :=
  fun known => h.bind fun a _ => .ok (a, known)

theorem LoadFails.of_exists (h : ∀ known, ∃ a later, Loads x known a later) : LoadFails P x := by
  intro known
  obtain ⟨a, later, ha⟩ := h known
  exact ha ▸ .ok (a, later)

end LoadFails

theorem failsOnly_checkPlace (place : Option Place) (element name : String) (kind : Kind) :
    FailsOnly Failure.OfModel (checkPlace place element name kind) := by
  unfold checkPlace
  split
  · split
    · exact .ok ()
    · exact .error rfl
  · split
    · exact .ok ()
    · exact .error rfl

/-- **A component fails only as its tag can be refused.** -/
theorem loadFails_node (place : Option Place) (tag : Tag) :
    LoadFails (Refusal tag) (node place tag) := by
  have hmodel : ∀ {α : Type} {r : Except Failure α}, FailsOnly Failure.OfModel r →
      LoadFails (Refusal tag) (liftM r : Loading α) :=
    fun h => loadFails_lift (h.imp fun _ => .of_model)
  refine (hmodel failsOnly_required).bind fun name => ?_
  refine (loadFails_lift failsOnly_kind).bind fun kind => ?_
  refine (hmodel (failsOnly_checkPlace place tag.name name kind)).bind fun _ => ?_
  refine (LoadFails.of_exists (exists_loads_scope? tag)).bind fun _ => ?_
  refine (LoadFails.of_exists (exists_loads_decl? tag)).bind fun _ => ?_
  refine (hmodel failsOnly_number?).bind fun _ => ?_
  exact (hmodel (failsOnly_array? name)).bind fun _ => loadFails_pure _

section Components

variable {P : Failure → Prop}

mutual

theorem loadFails_component (place : Option Place) :
    ∀ e : Element, (∀ tag ∈ e.preorder, ∀ f, Refusal tag f → P f) →
      LoadFails P (component place e)
  | .node tag inside, hP => by
    rw [component]
    refine LoadFails.bind (fun known => (loadFails_node place tag known).imp ?_) fun n => ?_
    · exact hP tag List.mem_cons_self
    · exact (loadFails_components _ inside fun t ht => hP t (List.mem_cons_of_mem tag ht)).bind
        fun _ => loadFails_pure _

theorem loadFails_components (place : Option Place) :
    ∀ es : List Element, (∀ tag ∈ Tree.preorderAll es, ∀ f, Refusal tag f → P f) →
      LoadFails P (components place es)
  | [], _ => by
    rw [components]
    exact loadFails_pure []
  | e :: es, hP => by
    rw [components]
    refine (loadFails_component place e fun t ht => hP t (List.mem_append_left _ ht)).bind
      fun _ => ?_
    exact (loadFails_components place es fun t ht => hP t (List.mem_append_right _ ht)).bind
      fun _ => loadFails_pure _

end

end Components

/-- **A document fails only as one of its tags can be refused**, or with a fault of the design. -/
theorem failsOnly_ofElement (root : Element) :
    FailsOnly (fun e => e.OfModel ∨ ∃ tag ∈ Tree.preorderAll root.children, Refusal tag e)
      (ofElement root) := by
  unfold ofElement
  split
  · exact .error (.inl rfl)
  · refine FailsOnly.bind ?_ fun p _ => ?_
    · exact loadFails_components none root.children
        (fun tag htag f hf => .inr ⟨tag, htag, hf⟩) .empty
    · dsimp only
      split
      · exact .error (.inl rfl)
      · exact .ok _

/-! ## Fields between two bits -/

/-- The node is a field that lies between these bits. -/
def Between (n : Node) (lsb msb : UInt64) : Prop :=
  ∃ spec, n.kind = .field spec ∧ spec.lsb.toNat = lsb.toNat ∧
    spec.width.toNat = msb.toNat - lsb.toNat + 1

theorem Stated.number_unique {key : String} {n n' : UInt64} (h : Stated tag key IsNumber n)
    (h' : Stated tag key IsNumber n') : n = n' := by
  obtain ⟨text, htext, hn⟩ := h
  obtain ⟨text', htext', hn'⟩ := h'
  obtain rfl := Option.some.inj (htext.symm.trans htext')
  exact Except.ok.inj (hn.symm.trans hn')

namespace Spans

variable {lsb msb : UInt64}

theorem between (h : Spans tag lsb msb) {n : Node} (hn : Decoded tag n) :
    SpanFits lsb msb ∧ Between n lsb msb := by
  cases hkind : n.kind with
  | field spec =>
    have hspec := hn.kind
    rw [hkind] at hspec
    cases hspec with
    | field _ hspec =>
      obtain ⟨text, htext, l, hl, hlval⟩ := hspec.lsb
      obtain rfl : l = lsb := Stated.number_unique ⟨text, htext, hl⟩ h.lsb
      have hwidth := hspec.width
      generalize hw : spec.width = w at hwidth
      cases hwidth with
      | given hwidth =>
        obtain ⟨text, htext, _⟩ := hwidth
        exact nomatch h.noWidth.symm.trans htext
      | single _ hmsb =>
        obtain ⟨text, htext, _⟩ := h.msb
        exact nomatch hmsb.symm.trans htext
      | @upTo last _ _ hlast hle hwidth =>
        obtain ⟨text, htext, u, hu, huval⟩ := hlast
        obtain rfl : u = msb := Stated.number_unique ⟨text, htext, hu⟩ h.msb
        subst hw
        have hlt := last.toNat_lt
        have hwlt := spec.width.toNat_lt
        refine ⟨⟨by omega, by omega, by omega⟩, spec, hkind, hlval, by omega⟩
  | addrmap | regfile | reg | mem | signal =>
    have hother := hn.kind
    rw [hkind] at hother
    cases hother with
    | _ hname => exact absurd (h.name.symm.trans hname) (by decide)

theorem exists_legible (h : Spans tag lsb msb) (hfits : SpanFits lsb msb)
    (hrest : LegibleBesideBits tag) : ∃ n, Legible tag n ∧ n.kind.field?.isSome = true := by
  obtain ⟨hle, hmsb, hwidth⟩ := hfits
  obtain ⟨name, hname⟩ := hrest.name
  obtain ⟨policy, hpolicy⟩ := hrest.policy
  obtain ⟨onRead, hread⟩ := hrest.onRead
  obtain ⟨onWrite, hwrite⟩ := hrest.onWrite
  obtain ⟨reset, hreset⟩ := hrest.reset
  obtain ⟨isVolatile, hvolatile⟩ := hrest.isVolatile
  obtain ⟨offset, hoffset⟩ := hrest.offset
  obtain ⟨array, harray⟩ := hrest.array
  have hbits : ∀ {n : Nat}, n < 2 ^ 32 → (UInt32.ofNat n).toNat = n := UInt32.toNat_ofNat_of_lt
  obtain ⟨ltext, hltext, hl⟩ := h.lsb
  obtain ⟨mtext, hmtext, hm⟩ := h.msb
  -- The field with these ends, and what the rest of the tag says of it.
  let spec : FieldSpec :=
    { lsb := UInt32.ofNat lsb.toNat, width := UInt32.ofNat (msb.toNat - lsb.toNat + 1)
      policy := policy.getD .readWrite, onRead := onRead, onWrite := onWrite, reset := reset
      isVolatile := isVolatile }
  have hend : Stated tag "msb" IsBits (UInt32.ofNat msb.toNat) :=
    ⟨mtext, hmtext, msb, hm, hbits (by omega)⟩
  have hspec : FieldOf tag spec :=
    { lsb := ⟨ltext, hltext, lsb, hl, hbits (by omega)⟩
      width := by
        refine .upTo h.noWidth hend ?_ ?_
        · rw [hbits (by omega), hbits (by omega)]
          exact hle
        · rw [hbits (by omega), hbits (by omega), hbits (by omega)]
      policy := .of_any hpolicy _
      onRead := hread
      onWrite := hwrite
      reset := hreset
      isVolatile := hvolatile }
  let n : Node :=
    { name := name
      kind := .field spec
      description := tag.attribute? "desc"
      offset := offset
      array := array
      typeName := tag.attribute? "type" }
  have hn : Legible tag n := {
    name := hname
    kind := .field h.name hspec
    description := rfl
    offset := hoffset
    array := harray
    typeName := rfl
    lastBit := fun _ => ⟨some msb, h.msb.any⟩ }
  exact ⟨n, hn, rfl⟩

end Spans

/-! ## Documents -/

section Documents

variable {root : Element}

theorem ofModel_of_node {place : Option Place} {known : Declarations} {e : Failure}
    (hroom : ¬Spans tag 0 lastBit) (hwords : KnownWords tag)
    (h : (node place tag).run known = .error e) : e.OfModel :=
  (loadFails_node place tag known e h).ofModel hwords hroom

theorem fault_of_ofElement (hroom : ∀ tag ∈ Tree.preorderAll root.children, ¬Spans tag 0 lastBit)
    {e : Failure} (h : ofElement root = .error e) : ∃ f, e = .fault f ∧
      ((∀ tag ∈ Tree.preorderAll root.children, KnownWords tag) → f.kind = .model) := by
  rcases failsOnly_ofElement root e h with hmodel | ⟨tag, htag, hrefusal⟩
  · obtain ⟨f, rfl, hkind⟩ := hmodel.exists_fault
    exact ⟨f, rfl, fun _ => hkind⟩
  · cases hrefusal with
    | @model f hkind => exact ⟨f, rfl, fun _ => hkind⟩
    | @word f _ hunknown => exact ⟨f, rfl, fun hwords => absurd (hwords tag htag) hunknown⟩
    | full hspans => exact absurd hspans (hroom tag htag)

/-- **Reading is total**, apart from fields of all bits: a document that describes a design is read,
and every other one is refused with a fault.  A field that is given by its ends is read as the field
between them, in any register, if the rest of its tag is legible and the places and the number of
its bits have 32 bits; else the field, and the whole document, is refused with a fault of the
design. -/
theorem reading_is_total
    (hroom : ∀ tag ∈ Tree.preorderAll root.children, ¬Spans tag 0 lastBit) :
    (Describes root ∧ (∃ m, ofElement root = .ok m) ∨
      ¬Describes root ∧ ∃ f, ofElement root = .error (.fault f)) ∧
    ∀ (i : Nat) (tag : Tag), (Tree.preorderAll root.children)[i]? = some tag →
      ∀ lsb msb, Spans tag lsb msb →
        (∀ m, ofElement root = .ok m → SpanFits lsb msb ∧ Between (m.node i) lsb msb) ∧
        (SpanFits lsb msb → LegibleBesideBits tag →
          ∀ (around : Place) (known : Declarations), around.kind.isReg = true →
            ∃ n later, Loads (node (some around) tag) known n later ∧ Between n lsb msb) ∧
        (¬SpanFits lsb msb → KnownWords tag → ∀ (place : Option Place) (known : Declarations),
          ∃ f, (node place tag).run known = .error (.fault f) ∧ f.kind = .model) ∧
        (¬SpanFits lsb msb → (∀ t ∈ Tree.preorderAll root.children, KnownWords t) →
          ∃ f, ofElement root = .error (.fault f) ∧ f.kind = .model) := by
  refine ⟨?_, fun i tag hi lsb msb hspans => ?_⟩
  · match hread : ofElement root with
    | .ok m => exact .inl ⟨exists_ofElement_iff.1 ⟨m, hread⟩, m, rfl⟩
    | .error e =>
      obtain ⟨f, rfl, _⟩ := fault_of_ofElement hroom hread
      refine .inr ⟨fun hdescribes => ?_, f, rfl⟩
      obtain ⟨m, hok⟩ := exists_ofElement_iff.2 hdescribes
      exact nomatch hok.symm.trans hread
  -- A model has its nodes in the order of the document, so the tag at `i` describes the node `i`.
  have haccepted : ∀ m, ofElement root = .ok m →
      SpanFits lsb msb ∧ Between (m.node i) lsb msb := by
    intro m hread
    obtain ⟨n, hn, hdecoded⟩ := forall₂_getElem? (mirrors_of_ofElement hread).1.nodes hi
    rw [List.getElem?_map] at hn
    obtain ⟨j, hj, rfl⟩ := Option.map_eq_some_iff.1 hn
    obtain ⟨_, rfl⟩ := List.getElem?_eq_some_iff.1 hj
    rw [List.getElem_range] at hdecoded
    exact hspans.between hdecoded
  refine ⟨haccepted, fun hfits hrest around known hreg => ?_, fun hnot hwords place known => ?_,
    fun hnot hwords => ?_⟩
  · obtain ⟨n, hn, hfield⟩ := hspans.exists_legible hfits hrest
    have hplace : n.kind.MayStand ((some around).map (·.kind)) := hfield.trans hreg.symm
    obtain ⟨scope, decl, later, hloads⟩ := loads_of_legible hn hplace known
    exact ⟨_, later, hloads, (hspans.between (legible_of_node hloads).toDecoded).2⟩
  · match hnode : (node place tag).run known with
    | .ok (n, later) => exact absurd (hspans.between (decoded_of_node hnode).1).1 hnot
    | .error e =>
      obtain ⟨f, rfl, hkind⟩ :=
        (ofModel_of_node (hroom tag (List.mem_of_getElem? hi)) hwords hnode).exists_fault
      exact ⟨f, rfl, hkind⟩
  · match hread : ofElement root with
    | .ok m => exact absurd (haccepted m hread).1 hnot
    | .error e =>
      obtain ⟨f, rfl, hkind⟩ := fault_of_ofElement hroom hread
      exact ⟨f, rfl, hkind hwords⟩

end Documents

/-! ### Fields at the limit, and beyond it -/

/-- A design with one register, which has a field between two bits. -/
def fieldBetween (lsb msb : String) : Element :=
  .node ⟨"model", [], none⟩ [
    .node ⟨"addrmap", [("name", "soc")], none⟩ [
      .node ⟨"reg", [("name", "ctrl")], none⟩ [
        .node ⟨"field", [("name", "all"), ("lsb", lsb), ("msb", msb)], none⟩ []]]]

/-- The field of all bits of a word. -/
def fullRegister : Element :=
  fieldBetween "0" "0xffffffff"

theorem ofElement_fullRegister :
    Model.size <$> ofElement fullRegister = .error (.abort .overflow) := by
  decide +kernel

/-- **Reading can abort**: both ends of a field have 32 bits, and the number of its bits has not. -/
theorem reading_can_abort :
    ¬∀ root : Element, (∃ m, ofElement root = .ok m) ∨ ∃ f, ofElement root = .error (.fault f) := by
  intro hall
  have habort := ofElement_fullRegister
  rcases hall fullRegister with ⟨m, hok⟩ | ⟨f, hfault⟩
  · rw [hok] at habort
    cases habort
  · rw [hfault] at habort
    cases habort

theorem not_spans_of_lsb (h : number tag "lsb" ≠ .ok 0) : ¬Spans tag 0 lastBit :=
  fun hspans => h (number_of_stated hspans.lsb)

/-- From bit 1 to the last one a field is read, and with one bit more it is refused. -/
theorem reading_is_total_fieldBetween :
    (∃ m, ofElement (fieldBetween "1" "0xffffffff") = .ok m ∧ Between (m.node 2) 1 lastBit) ∧
      ∃ f, ofElement (fieldBetween "1" "0x100000000") = .error (.fault f) ∧ f.kind = .model := by
  have hone : Text.readNumber "1" = .ok 1 := by decide +kernel
  refine ⟨?_, ?_⟩
  · have hroom : ∀ tag ∈ Tree.preorderAll (fieldBetween "1" "0xffffffff").children,
        number tag "lsb" ≠ .ok 0 := by decide +kernel
    have hlast : Text.readNumber "0xffffffff" = .ok lastBit := by decide +kernel
    obtain ⟨m, hok⟩ := isOk_iff.1
      (by decide +kernel : (ofElement (fieldBetween "1" "0xffffffff")).isOk = true)
    obtain ⟨_, hfields⟩ := reading_is_total fun tag htag => not_spans_of_lsb (hroom tag htag)
    exact ⟨m, hok, ((hfields 2 _ rfl 1 lastBit
      ⟨rfl, ⟨"1", rfl, hone⟩, ⟨"0xffffffff", rfl, hlast⟩, rfl⟩).1 m hok).2⟩
  · have hroom : ∀ tag ∈ Tree.preorderAll (fieldBetween "1" "0x100000000").children,
        number tag "lsb" ≠ .ok 0 := by decide +kernel
    have hbeyond : Text.readNumber "0x100000000" = .ok 0x100000000 := by decide +kernel
    have hmissing : ∀ t ∈ Tree.preorderAll (fieldBetween "1" "0x100000000").children,
        t.attribute? "sw" = none ∧ t.attribute? "onread" = none ∧
          t.attribute? "onwrite" = none := by decide +kernel
    have hwords : ∀ t ∈ Tree.preorderAll (fieldBetween "1" "0x100000000").children,
        KnownWords t := fun t ht =>
      knownWords_of_missing (hmissing t ht).1 (hmissing t ht).2.1 (hmissing t ht).2.2
    obtain ⟨_, hfields⟩ := reading_is_total fun tag htag => not_spans_of_lsb (hroom tag htag)
    exact (hfields 2 _ rfl 1 0x100000000
      ⟨rfl, ⟨"1", rfl, hone⟩, ⟨"0x100000000", rfl, hbeyond⟩, rfl⟩).2.2.2 (by decide) hwords

end Description

end RegLayer
