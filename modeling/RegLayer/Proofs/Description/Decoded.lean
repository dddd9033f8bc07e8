/-
# `RegLayer.Proofs.Description.Decoded` — what a tag says about its component

A tag describes a component by its name, which is the kind, and by attributes with defaults.
`Decoded` writes these rules down without a word about how tags are read: which attribute stands
for which property, what its text can be, and what holds where it is missing.  Three forms of rule
suffice: an attribute with a default (`Said`), one without (`SaidAny`), and one that has to be
there (`Stated`).

Each lemma below takes one reader and turns its success into the rule it follows, up to the reader
of a whole component (`decoded_of_node`).  The converse is `RegLayer.Proofs.Description.Accepted`,
and what happens where a rule is broken `RegLayer.Proofs.Description.Totality`.
-/
import RegLayer.Description
import RegLayer.Proofs.Outcome

namespace RegLayer

open Xml

/-- Every width of a component is at least one bit. -/
def Kind.WidthsPositive : Kind → Prop
  | .reg width accessWidth => 0 < width.toNat ∧ 0 < accessWidth.toNat
  | .mem _ width _ => 0 < width.toNat
  | .field spec => 0 < spec.width.toNat
  | .addrmap _ _ | .regfile | .signal => True

namespace Description

/-! ## Rules for texts -/

/-- The text is this number. -/
def IsNumber (text : String) (n : UInt64) : Prop :=
  Text.readNumber text = .ok n

/-- The text is this number, which a word of 32 bits can hold. -/
def IsBits (text : String) (w : UInt32) : Prop :=
  ∃ n, IsNumber text n ∧ w.toNat = n.toNat

/-- The text is this number of bits, and not zero. -/
def IsWidth (text : String) (w : UInt32) : Prop :=
  IsBits text w ∧ 0 < w.toNat

/-- The text is a list of these numbers, with commas between them. -/
def AreNumbers (text : String) (ns : List UInt64) : Prop :=
  List.Forall₂ IsNumber (Text.split ',' text) ns

/-- The text turns a switch on or off. -/
inductive IsFlag : String → Bool → Prop
  | yes : IsFlag "true" true
  | one : IsFlag "1" true
  | no : IsFlag "false" false
  | zero : IsFlag "0" false

/-- The text, apart from white space around it, is the word for this. -/
def IsWord {α : Type} (ofWord? : String → Option α) (text : String) (a : α) : Prop :=
  ofWord? (Text.trim text) = some a

/-! ## Rules for tags -/

section Attributes

variable {α : Type} (tag : Tag) (key : String) (Means : String → α → Prop)

/-- What an attribute says, or the default where the tag does not have the attribute. -/
inductive Said (default_ : α) : α → Prop
  | missing : tag.attribute? key = none → Said default_ default_
  | given {text : String} {a : α} : tag.attribute? key = some text → Means text a → Said default_ a

/-- What an attribute says, if the tag has it. -/
def SaidAny : Option α → Prop :=
  Option.Rel Means (tag.attribute? key)

/-- What an attribute says, which the tag has to have. -/
def Stated (a : α) : Prop :=
  ∃ text, tag.attribute? key = some text ∧ Means text a

end Attributes

variable {tag : Tag}

/-- A map is big-endian if the tag says so, else little-endian if it says that. -/
inductive EndiannessOf (tag : Tag) : Endianness → Prop
  | big : Said tag "bigendian" IsFlag false true → EndiannessOf tag .big
  | little : Said tag "bigendian" IsFlag false false → Said tag "littleendian" IsFlag false true →
      EndiannessOf tag .little
  | unspecified : Said tag "bigendian" IsFlag false false →
      Said tag "littleendian" IsFlag false false → EndiannessOf tag .unspecified

/-- A field has the width that is given, or else ends with the bit that is given, or else is one
bit wide. -/
inductive FieldWidthOf (tag : Tag) (lsb : UInt32) : UInt32 → Prop
  | given {width : UInt32} : Stated tag "width" IsWidth width → FieldWidthOf tag lsb width
  | upTo {msb width : UInt32} : tag.attribute? "width" = none → Stated tag "msb" IsBits msb →
      lsb.toNat ≤ msb.toNat → width.toNat = msb.toNat - lsb.toNat + 1 → FieldWidthOf tag lsb width
  | single : tag.attribute? "width" = none → tag.attribute? "msb" = none → FieldWidthOf tag lsb 1

/-- What a tag says about a field. -/
structure FieldOf (tag : Tag) (spec : FieldSpec) : Prop where
  lsb : Stated tag "lsb" IsBits spec.lsb
  width : FieldWidthOf tag spec.lsb spec.width
  policy : Said tag "sw" (IsWord Policy.ofWord?) .readWrite spec.policy
  onRead : SaidAny tag "onread" (IsWord ReadEffect.ofWord?) spec.onRead
  onWrite : SaidAny tag "onwrite" (IsWord WriteEffect.ofWord?) spec.onWrite
  reset : SaidAny tag "reset" IsNumber spec.reset
  isVolatile : Said tag "volatile" IsFlag false spec.isVolatile

/-- What a tag says about the kind of a component: the name tells which it is, and each kind has
attributes of its own. -/
inductive KindOf (tag : Tag) : Kind → Prop
  | addrmap {endianness : Endianness} {bridge : Bool} : tag.name = "addrmap" →
      EndiannessOf tag endianness → Said tag "bridge" IsFlag false bridge →
      KindOf tag (.addrmap endianness bridge)
  | regfile : tag.name = "regfile" → KindOf tag .regfile
  | reg {width accessWidth : UInt32} : tag.name = "reg" → Said tag "regwidth" IsWidth 32 width →
      Said tag "accesswidth" IsWidth width accessWidth → KindOf tag (.reg width accessWidth)
  | mem {entries : UInt64} {width : UInt32} {policy : Policy} : tag.name = "mem" →
      Stated tag "mementries" IsNumber entries → Stated tag "memwidth" IsWidth width →
      Said tag "sw" (IsWord Policy.ofWord?) .readWrite policy →
      KindOf tag (.mem entries width policy)
  | field {spec : FieldSpec} : tag.name = "field" → FieldOf tag spec → KindOf tag (.field spec)
  | signal : tag.name = "signal" → KindOf tag .signal

/-- A component is an array if its tag has dimensions, and then the tag has a stride, too. -/
inductive ArrayOf (tag : Tag) : Option ArrayShape → Prop
  | single : tag.attribute? "dims" = none → ArrayOf tag none
  | array {shape : ArrayShape} : Stated tag "dims" AreNumbers shape.dims →
      Stated tag "stride" IsNumber shape.stride → ArrayOf tag (some shape)

/-- What a tag says about a component. -/
structure Decoded (tag : Tag) (n : Node) : Prop where
  name : tag.attribute? "name" = some n.name
  kind : KindOf tag n.kind
  description : tag.attribute? "desc" = n.description
  offset : Said tag "offset" IsNumber 0 n.offset
  array : ArrayOf tag n.array
  typeName : tag.attribute? "type" = n.typeName

/-! ## Reading attributes -/

section Attributes

variable {α : Type} {key : String} {Means : String → α → Prop}

theorem Said.of_any {o : Option α} (h : SaidAny tag key Means o) (default_ : α) :
    Said tag key Means default_ (o.getD default_) := by
  rw [SaidAny] at h
  generalize htext : tag.attribute? key = text at h
  cases h with
  | some hmeans => exact .given htext hmeans
  | none => exact .missing htext

theorem Stated.of_any {a : α} (h : SaidAny tag key Means (some a)) : Stated tag key Means a := by
  rw [SaidAny] at h
  generalize htext : tag.attribute? key = text at h
  cases h with
  | some hmeans => exact ⟨_, htext, hmeans⟩

theorem SaidAny.missing (h : SaidAny tag key Means none) : tag.attribute? key = none := by
  rw [SaidAny] at h
  generalize tag.attribute? key = text at h
  cases h with
  | none => rfl

theorem saidAny_of_optional {read : String → Except Failure α} {o : Option α}
    (hread : ∀ text a, read text = .ok a → Means text a) (h : optional tag key read = .ok o) :
    SaidAny tag key Means o := by
  rw [SaidAny]
  simp only [optional] at h
  split at h
  · next text htext =>
    obtain ⟨a, ha, rfl⟩ := map_eq_ok.1 h
    rw [htext]
    exact .some (hread text a ha)
  · next hnone =>
    obtain rfl := Except.ok.inj h
    rw [hnone]
    exact .none

theorem attribute_of_required {text : String} (h : required tag key = .ok text) :
    tag.attribute? key = some text := by
  simp only [required] at h
  split at h
  · next hsome =>
    obtain rfl := Except.ok.inj h
    exact hsome
  · cases h

end Attributes

section Readers

variable {key : String}

theorem saidAny_of_number? {o : Option UInt64} (h : number? tag key = .ok o) :
    SaidAny tag key IsNumber o :=
  saidAny_of_optional (fun _ _ hread => hread) h

theorem stated_of_number {n : UInt64} (h : number tag key = .ok n) :
    Stated tag key IsNumber n := by
  simp only [number, bind_eq_ok] at h
  obtain ⟨text, htext, hn⟩ := h
  exact ⟨text, attribute_of_required htext, hn⟩

theorem toNat_of_bits {n : UInt64} {w : UInt32} (h : bits tag key n = .ok w) :
    w.toNat = n.toNat := by
  simp only [bits] at h
  split at h
  · next hw =>
    obtain rfl := Except.ok.inj h
    exact Text.toNat_word32? hw
  · cases h

theorem stated_of_bits {n : UInt64} {w : UInt32} (hn : Stated tag key IsNumber n)
    (h : bits tag key n = .ok w) : Stated tag key IsBits w := by
  obtain ⟨text, htext, hnumber⟩ := hn
  exact ⟨text, htext, n, hnumber, toNat_of_bits h⟩

theorem saidAny_of_width? {o : Option UInt32} (h : width? tag key = .ok o) :
    SaidAny tag key IsWidth o := by
  simp only [width?, bind_eq_ok] at h
  obtain ⟨number, hnumber, h⟩ := h
  have hsaid := saidAny_of_number? hnumber
  cases number with
  | none =>
    obtain rfl := pure_eq_ok.1 h
    rw [SaidAny, hsaid.missing]
    exact .none
  | some n =>
    obtain ⟨text, htext, hn⟩ := Stated.of_any hsaid
    dsimp only at h
    split at h
    · cases h
    · next hpos =>
      obtain ⟨w, hw, rfl⟩ := map_eq_ok.1 h
      have hval : w.toNat = n.toNat := toNat_of_bits hw
      have hn0 : n.toNat ≠ 0 := fun hzero => hpos (UInt64.toNat_inj.1 hzero)
      rw [SaidAny, htext]
      exact .some ⟨⟨n, hn, hval⟩, by omega⟩

theorem isFlag_of_readFlag {text : String} {b : Bool} (h : readFlag key text = .ok b) :
    IsFlag text b := by
  simp only [readFlag] at h
  split at h
  · obtain rfl := Except.ok.inj h
    exact .yes
  · obtain rfl := Except.ok.inj h
    exact .one
  · obtain rfl := Except.ok.inj h
    exact .no
  · obtain rfl := Except.ok.inj h
    exact .zero
  · cases h

theorem said_of_flag {b : Bool} (h : flag tag key = .ok b) : Said tag key IsFlag false b := by
  simp only [flag, bind_eq_ok, pure_eq_ok] at h
  obtain ⟨o, ho, rfl⟩ := h
  exact .of_any (saidAny_of_optional (fun _ _ => isFlag_of_readFlag) ho) false

theorem isWord_of_readWord {α : Type} {ofWord? : String → Option α} {refusal : String → Fault}
    {text : String} {a : α} (h : readWord ofWord? refusal text = .ok a) :
    IsWord ofWord? text a := by
  simp only [readWord] at h
  split at h
  · next ha =>
    obtain rfl := Except.ok.inj h
    exact ha
  · cases h

theorem said_of_policy {p : Policy} (h : policy tag = .ok p) :
    Said tag "sw" (IsWord Policy.ofWord?) .readWrite p := by
  simp only [policy, bind_eq_ok, pure_eq_ok] at h
  obtain ⟨o, ho, rfl⟩ := h
  exact .of_any (saidAny_of_optional (fun _ _ => isWord_of_readWord) ho) _

end Readers

/-! ## Reading kinds -/

theorem EndiannessOf.of_read {endianness : Endianness}
    (h : Description.endianness tag = .ok endianness) : EndiannessOf tag endianness := by
  simp only [Description.endianness, bind_eq_ok] at h
  obtain ⟨big, hbig, h⟩ := h
  have hbig := said_of_flag hbig
  cases big with
  | true =>
    obtain rfl := pure_eq_ok.1 h
    exact .big hbig
  | false =>
    rw [if_neg Bool.false_ne_true, bind_eq_ok] at h
    obtain ⟨little, hlittle, h⟩ := h
    have hlittle := said_of_flag hlittle
    cases little with
    | true =>
      obtain rfl := pure_eq_ok.1 h
      exact .little hbig hlittle
    | false =>
      obtain rfl := pure_eq_ok.1 h
      exact .unspecified hbig hlittle

theorem FieldWidthOf.of_read {lsb width : UInt32} (h : fieldWidth tag lsb = .ok width) :
    FieldWidthOf tag lsb width := by
  simp only [fieldWidth, bind_eq_ok] at h
  obtain ⟨width?, hwidth, msb?, hmsb, h⟩ := h
  have hwidth := saidAny_of_width? hwidth
  have hmsb := saidAny_of_number? hmsb
  match width?, msb? with
  | some w, _ =>
    obtain rfl := pure_eq_ok.1 h
    exact .given (.of_any hwidth)
  | none, none =>
    obtain rfl := pure_eq_ok.1 h
    exact .single hwidth.missing hmsb.missing
  | none, some msb =>
    simp only [widthUpTo] at h
    split at h
    · cases h
    · next hle =>
      simp only [bind_eq_ok, Checked.add32_eq_ok_iff, Checked.sub32_eq_ok_iff] at h
      obtain ⟨last, hlast, span, hspan, hwidth'⟩ := h
      have hval : last.toNat = msb.toNat := toNat_of_bits hlast
      have hone : (1 : UInt32).toNat = 1 := rfl
      exact .upTo hwidth.missing (stated_of_bits (.of_any hmsb) hlast) (by omega) (by omega)

theorem FieldOf.of_read {spec : FieldSpec} (h : fieldSpec tag = .ok spec) : FieldOf tag spec := by
  simp only [fieldSpec, bind_eq_ok, pure_eq_ok] at h
  obtain ⟨n, hn, lsb, hlsb, width, hwidth, policy, hpolicy, onRead, hread, onWrite, hwrite, reset,
    hreset, isVolatile, hvolatile, rfl⟩ := h
  exact {
    lsb := stated_of_bits (stated_of_number hn) hlsb
    width := .of_read hwidth
    policy := said_of_policy hpolicy
    onRead := saidAny_of_optional (fun _ _ => isWord_of_readWord) hread
    onWrite := saidAny_of_optional (fun _ _ => isWord_of_readWord) hwrite
    reset := saidAny_of_number? hreset
    isVolatile := said_of_flag hvolatile }

theorem stated_of_wordWidth {width : UInt32} (h : wordWidth tag = .ok width) :
    Stated tag "memwidth" IsWidth width := by
  simp only [wordWidth, bind_eq_ok] at h
  obtain ⟨o, ho, h⟩ := h
  cases o with
  | none => cases h
  | some w =>
    obtain rfl := pure_eq_ok.1 h
    exact .of_any (saidAny_of_width? ho)

theorem KindOf.of_read {kind : Kind} (h : Description.kind tag = .ok kind) : KindOf tag kind := by
  simp only [Description.kind] at h
  split at h
  · next hname =>
    simp only [bind_eq_ok, pure_eq_ok] at h
    obtain ⟨endianness, hendianness, bridge, hbridge, rfl⟩ := h
    exact .addrmap hname (.of_read hendianness) (said_of_flag hbridge)
  · next hname =>
    obtain rfl := pure_eq_ok.1 h
    exact .regfile hname
  · next hname =>
    simp only [bind_eq_ok, pure_eq_ok] at h
    obtain ⟨width, hwidth, accessWidth, haccess, rfl⟩ := h
    exact .reg hname (.of_any (saidAny_of_width? hwidth) 32) (.of_any (saidAny_of_width? haccess) _)
  · next hname =>
    simp only [bind_eq_ok, pure_eq_ok] at h
    obtain ⟨entries, hentries, width, hwidth, policy, hpolicy, rfl⟩ := h
    exact .mem hname (stated_of_number hentries) (stated_of_wordWidth hwidth)
      (said_of_policy hpolicy)
  · next hname =>
    simp only [bind_eq_ok, pure_eq_ok] at h
    obtain ⟨spec, hspec, rfl⟩ := h
    exact .field hname (.of_read hspec)
  · next hname =>
    obtain rfl := pure_eq_ok.1 h
    exact .signal hname
  · cases h

theorem ArrayOf.of_read {name : String} {array : Option ArrayShape}
    (h : array? tag name = .ok array) : ArrayOf tag array := by
  simp only [array?, bind_eq_ok] at h
  obtain ⟨dims?, hdims, h⟩ := h
  have hdims : SaidAny tag "dims" AreNumbers dims? :=
    saidAny_of_optional (fun _ _ hread => mapM_eq_ok.1 hread) hdims
  cases dims? with
  | none =>
    obtain rfl := pure_eq_ok.1 h
    exact .single hdims.missing
  | some dims =>
    obtain ⟨stride?, hstride, h⟩ := bind_eq_ok.1 h
    cases stride? with
    | none => cases h
    | some stride =>
      obtain rfl := pure_eq_ok.1 h
      exact .array (.of_any hdims) (.of_any (saidAny_of_number? hstride))

/-! ## Positive widths -/

theorem Said.width_pos {key : String} {default_ width : UInt32} (hdefault : 0 < default_.toNat)
    (h : Said tag key IsWidth default_ width) : 0 < width.toNat := by
  cases h with
  | missing => exact hdefault
  | given _ hwidth => exact hwidth.2

theorem Stated.width_pos {key : String} {width : UInt32} (h : Stated tag key IsWidth width) :
    0 < width.toNat := by
  obtain ⟨_, _, hwidth⟩ := h
  exact hwidth.2

theorem FieldWidthOf.width_pos {lsb width : UInt32} (h : FieldWidthOf tag lsb width) :
    0 < width.toNat := by
  cases h with
  | given hwidth => exact hwidth.width_pos
  | upTo _ _ _ hwidth => omega
  | single => decide

theorem KindOf.widthsPositive {kind : Kind} (h : KindOf tag kind) : kind.WidthsPositive := by
  cases h with
  | addrmap | regfile | signal => trivial
  | reg _ hwidth haccess =>
    have hpos := hwidth.width_pos (by decide)
    exact ⟨hpos, haccess.width_pos hpos⟩
  | mem _ _ hwidth => exact hwidth.width_pos
  | field _ hspec =>
    exact hspec.width.width_pos

/-! ## Reading components -/

/-- Reading succeeds with this result, and leaves these declarations. -/
def Loads {α : Type} (x : Loading α) (known : Declarations) (a : α) (later : Declarations) : Prop :=
  x.run known = .ok (a, later)

section Loads

variable {α β : Type} {known later : Declarations}

theorem loads_pure {a b : α} : Loads (pure a) known b later ↔ a = b ∧ known = later := by
  rw [Loads, StateT.run_pure, pure_eq_ok, Prod.mk.injEq]

theorem loads_bind {x : Loading α} {f : α → Loading β} {b : β} :
    Loads (x >>= f) known b later ↔ ∃ a mid, Loads x known a mid ∧ Loads (f a) mid b later := by
  simp only [Loads]
  rw [StateT.run_bind, bind_eq_ok]
  exact ⟨fun ⟨⟨a, mid⟩, h⟩ => ⟨a, mid, h⟩, fun ⟨a, mid, h⟩ => ⟨(a, mid), h⟩⟩

theorem loads_lift {r : Except Failure α} {a : α} :
    Loads (liftM r) known a later ↔ r = .ok a ∧ known = later := by
  show (r >>= fun a => pure (a, known)) = .ok (a, later) ↔ _
  rw [bind_eq_ok]
  constructor
  · intro ⟨b, hb, h⟩
    obtain ⟨rfl, rfl⟩ := Prod.mk.inj (pure_eq_ok.1 h)
    exact ⟨hb, rfl⟩
  · intro ⟨ha, hknown⟩
    exact ⟨a, ha, pure_eq_ok.2 (Prod.mk.injEq .. ▸ ⟨rfl, hknown⟩)⟩

end Loads

/-- **A component that was read is the one that its tag describes**, and it may stand where it
does. -/
theorem decoded_of_node {place : Option Place} {known later : Declarations} {n : Node}
    (h : Loads (node place tag) known n later) :
    Decoded tag n ∧ checkPlace place tag.name n.name n.kind = .ok () := by
  simp only [node, loads_bind, loads_lift, loads_pure] at h
  obtain ⟨name, _, ⟨hname, rfl⟩, kind, _, ⟨hkind, rfl⟩, _, _, ⟨hplace, rfl⟩, scope, _, _, decl, _,
    _, offset, _, ⟨hoffset, rfl⟩, array, _, ⟨harray, rfl⟩, rfl, rfl⟩ := h
  have hdecoded : Decoded tag ⟨name, kind, tag.attribute? "desc", offset.getD 0, array,
      tag.attribute? "type", decl, scope⟩ := {
    name := attribute_of_required hname
    kind := .of_read hkind
    description := rfl
    offset := .of_any (saidAny_of_number? hoffset) 0
    array := .of_read harray
    typeName := rfl }
  exact ⟨hdecoded, hplace⟩

end Description

end RegLayer
