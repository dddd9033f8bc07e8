/-
# `RegLayer.Proofs.Classes.Run` — describing classes, one component at a time

`Context.describe` runs down a list of components, and what it answers for one depends on the
class names taken before.  `Run` spells the same work out as steps that go forward:

    skip     a component without a class is passed over
    write    its name is free, and its class is written
    reuse    its own declaration holds its name, and the class is used again

`Stop` names the two ways in which the work ends before its time: a name is taken by somebody
else, or a class cannot be described.  `describe_run` says that the recursion does these steps and
no others; every statement about the classes of a model is then an induction over the steps, and
no proof unfolds the recursion again.

`Describes` is the other half of the interface: what the class of a component says, as a relation
with one constructor for each of the three shapes.
-/
import RegLayer.Classes.Describe
import RegLayer.Proofs.Outcome

namespace RegLayer.Classes

/-- Further classes described after the first ones. -/
def Context.Outcome.extend (out later : Context.Outcome) : Context.Outcome :=
  ⟨out.bodies ++ later.bodies, out.reused + later.reused, later.register⟩

namespace Context

variable (ctx : Context)

/-- Whether a component gets a class. -/
def bears (h : Nat) : Bool :=
  (ctx.names.model.kind h).hasClass

/-- The declaration of a component, if known. -/
def declOf (h : Nat) : Option DeclId :=
  (ctx.names.model.node h).decl

/-- The class register after a name was claimed that was free. -/
def claimed (r : ClassRegister) (h : Nat) : ClassRegister :=
  ⟨(ctx.names.className h, ctx.declOf h) :: r.claims⟩

/-! ## The class of one component -/

theorem outcome_block (h : Nat) :
    (ctx.block h).outcome = do
      let bytes ← (ctx.widths.busBytes (ctx.names.model.path h)).outcome
      let members ← (ctx.components h).mapM ctx.member
      return .block (ctx.heading h) bytes (ctx.names.model.endianness h) members := by
  unfold block
  simp only [Report.outcome_bind]
  rfl

theorem outcome_memory (h : Nat) (entries : UInt64) (width : UInt32) (policy : Policy) :
    (ctx.memory h entries width policy).outcome = do
      let bytes ← (busBytes (ctx.names.model.path h) width).outcome
      return .memory (ctx.heading h) bytes (ctx.names.model.endianness h) entries width
        policy.memoryCode := by
  unfold memory
  simp only [Report.outcome_bind]
  rfl

/-- Which classes describe a component: those that state its kind, its own endianness, and its
fields or members. -/
inductive Describes (h : Nat) : Body → Prop
  | register {width accessWidth : UInt32} :
      ctx.names.model.kind h = .reg width accessWidth → Describes h (ctx.register h width)
  | block {bytes : UInt32} {members : List Member} :
      (ctx.names.model.kind h).isGroup = true →
      (ctx.widths.busBytes (ctx.names.model.path h)).outcome = .ok bytes →
      List.Forall₂ (fun c member => ctx.member c = .ok member) (ctx.components h) members →
      Describes h (.block (ctx.heading h) bytes (ctx.names.model.endianness h) members)
  | memory {bytes width : UInt32} {entries : UInt64} {policy : Policy} :
      ctx.names.model.kind h = .mem entries width policy →
      (busBytes (ctx.names.model.path h) width).outcome = .ok bytes →
      Describes h (.memory (ctx.heading h) bytes (ctx.names.model.endianness h) entries width
        policy.memoryCode)

theorem Describes.heading_eq {ctx : Context} {h : Nat} {body : Body} (hd : ctx.Describes h body) :
    body.heading = ctx.heading h := by
  cases hd <;> rfl

theorem Describes.name_eq {ctx : Context} {h : Nat} {body : Body} (hd : ctx.Describes h body) :
    body.name = ctx.names.className h :=
  congrArg Heading.className hd.heading_eq

theorem describes_of_block {h : Nat} {o : Option Body}
    (hk : (ctx.names.model.kind h).isGroup = true)
    (ho : (some <$> ctx.block h).outcome = .ok o) :
    ∃ body, o = some body ∧ ctx.Describes h body := by
  rw [outcome_map] at ho
  obtain ⟨body, hbody, rfl⟩ := map_eq_ok.1 ho
  rw [outcome_block] at hbody
  obtain ⟨bytes, hbytes, hrest⟩ := bind_eq_ok.1 hbody
  obtain ⟨members, hmembers, hret⟩ := bind_eq_ok.1 hrest
  obtain rfl := Except.ok.inj hret
  exact ⟨_, rfl, .block hk hbytes (mapM_eq_ok.1 hmembers)⟩

theorem describes_of_body? {h : Nat} {o : Option Body} (hb : ctx.bears h = true)
    (ho : (ctx.body? h).outcome = .ok o) : ∃ body, o = some body ∧ ctx.Describes h body := by
  unfold body? at ho
  unfold bears at hb
  cases hk : ctx.names.model.kind h with
  | reg width accessWidth =>
    rw [hk] at ho
    exact ⟨_, (Except.ok.inj ho).symm, .register hk⟩
  | addrmap endianness bridge =>
    rw [hk] at ho
    exact ctx.describes_of_block (by rw [hk]; rfl) ho
  | regfile =>
    rw [hk] at ho
    exact ctx.describes_of_block (by rw [hk]; rfl) ho
  | mem entries width policy =>
    simp only [hk] at ho
    rw [outcome_map] at ho
    obtain ⟨body, hbody, rfl⟩ := map_eq_ok.1 ho
    rw [outcome_memory] at hbody
    obtain ⟨bytes, hbytes, hret⟩ := bind_eq_ok.1 hbody
    obtain rfl := Except.ok.inj hret
    exact ⟨_, rfl, .memory hk hbytes⟩
  | field spec =>
    rw [hk] at hb
    cases hb
  | signal =>
    rw [hk] at hb
    cases hb

/-! ## Steps -/

/-- The classes described when these components have been visited, in this order. -/
inductive Run : List Nat → Outcome → Prop
  | start : Run [] ⟨[], 0, .empty⟩
  | skip {done : List Nat} {out : Outcome} {h : Nat} :
      Run done out → ctx.bears h = false → Run (done ++ [h]) out
  | write {done : List Nat} {out : Outcome} {h : Nat} {body : Body} :
      Run done out → ctx.bears h = true → out.register.holder? (ctx.names.className h) = none →
      ctx.Describes h body →
      Run (done ++ [h]) ⟨out.bodies ++ [body], out.reused, ctx.claimed out.register h⟩
  | reuse {done : List Nat} {out : Outcome} {h : Nat} :
      Run done out → ctx.bears h = true →
      out.register.holder? (ctx.names.className h) = some (ctx.declOf h) →
      (ctx.declOf h).isSome = true →
      Run (done ++ [h]) ⟨out.bodies, out.reused + 1, out.register⟩

/-- Why the component that comes next ends the work. -/
inductive Stop (out : Outcome) (h : Nat) : Failure → Prop
  | taken {first : Option DeclId} :
      ctx.bears h = true → out.register.holder? (ctx.names.className h) = some first →
      ¬(first.isSome = true ∧ first = ctx.declOf h) →
      Stop out h (.fault (.classNameTaken (ctx.names.className h)))
  | body {e : Failure} :
      ctx.bears h = true → out.register.holder? (ctx.names.className h) = none →
      (ctx.body? h).outcome = .error e → Stop out h e

/-! ## One step of the recursion -/

theorem describe_skip {r : ClassRegister} {h : Nat} {hs : List Nat} (hb : ctx.bears h = false) :
    ctx.describe r (h :: hs) = ctx.describe r hs := by
  unfold bears at hb
  rw [describe, hb]
  rfl

theorem outcome_claim (r : ClassRegister) (h : Nat) :
    (ctx.claim r h).outcome = r.claim (ctx.names.className h) (ctx.declOf h) := by
  unfold claim declOf
  cases hc : r.claim (ctx.names.className h) (ctx.names.model.node h).decl with
  | error e => simp [hc]; rfl
  | ok answer => simp [hc]; rfl

theorem outcome_describe_write {r : ClassRegister} {h : Nat} {hs : List Nat}
    (hb : ctx.bears h = true) (hfree : r.holder? (ctx.names.className h) = none) :
    (ctx.describe r (h :: hs)).outcome = do
      let body ← (ctx.body? h).outcome
      let out ← (ctx.describe (ctx.claimed r h) hs).outcome
      return { out with bodies := body.toList ++ out.bodies } := by
  unfold bears at hb
  rw [describe, if_pos hb, Report.outcome_bind, outcome_claim, ClassRegister.claim,
    ClassRegister.query_of_free _ hfree]
  show (ctx.body? h >>= _).outcome = _
  simp only [Report.outcome_bind]
  rfl

theorem outcome_describe_reuse {r : ClassRegister} {h : Nat} {hs : List Nat}
    (hb : ctx.bears h = true) (hheld : r.holder? (ctx.names.className h) = some (ctx.declOf h))
    (hknown : (ctx.declOf h).isSome = true) :
    (ctx.describe r (h :: hs)).outcome = do
      let out ← (ctx.describe r hs).outcome
      return { out with reused := out.reused + 1 } := by
  unfold bears at hb
  rw [describe, if_pos hb, Report.outcome_bind, outcome_claim, ClassRegister.claim,
    ClassRegister.query_of_shared hheld (by simp [hknown])]
  show (ctx.describe r hs >>= _).outcome = _
  simp only [Report.outcome_bind]
  rfl

theorem outcome_describe_taken {r : ClassRegister} {h : Nat} {hs : List Nat}
    {first : Option DeclId} (hb : ctx.bears h = true)
    (hheld : r.holder? (ctx.names.className h) = some first)
    (hother : ¬(first.isSome = true ∧ first = ctx.declOf h)) :
    (ctx.describe r (h :: hs)).outcome =
      .error (.fault (.classNameTaken (ctx.names.className h))) := by
  unfold bears at hb
  have hother' : (first.isSome && first == ctx.declOf h) = false := by simpa using hother
  rw [describe, if_pos hb, Report.outcome_bind, outcome_claim, ClassRegister.claim,
    ClassRegister.query_of_taken hheld hother']
  rfl

/-! ## The whole recursion -/

/-- **One component**: it adds its part to the run and hands over to the rest of the list, or it
stops the run whatever the rest of the list is. -/
theorem describe_cons {done : List Nat} {out : Outcome} (hrun : ctx.Run done out) (h : Nat) :
    (∃ part : Outcome, ctx.Run (done ++ [h]) (out.extend part) ∧
      ∀ hs, (ctx.describe out.register (h :: hs)).outcome =
        part.extend <$> (ctx.describe part.register hs).outcome) ∨
    (∃ e, ctx.Stop out h e ∧
      ∀ hs, (ctx.describe out.register (h :: hs)).outcome = .error e) := by
  cases hb : ctx.bears h with
  | false =>
    refine Or.inl ⟨⟨[], 0, out.register⟩, ?_, fun hs => ?_⟩
    · simpa [Outcome.extend] using Run.skip hrun hb
    · rw [ctx.describe_skip hb]
      cases (ctx.describe out.register hs).outcome with
      | error e => rfl
      | ok later => simp [Outcome.extend]
  | true =>
    cases hheld : out.register.holder? (ctx.names.className h) with
    | none =>
      cases hbody : (ctx.body? h).outcome with
      | error e =>
        refine Or.inr ⟨e, .body hb hheld hbody, fun hs => ?_⟩
        rw [ctx.outcome_describe_write hb hheld, hbody]
        rfl
      | ok o =>
        obtain ⟨body, rfl, hd⟩ := ctx.describes_of_body? hb hbody
        refine Or.inl ⟨⟨[body], 0, ctx.claimed out.register h⟩, ?_, fun hs => ?_⟩
        · exact Run.write hrun hb hheld hd
        · rw [ctx.outcome_describe_write hb hheld, hbody]
          cases (ctx.describe (ctx.claimed out.register h) hs).outcome with
          | error e => rfl
          | ok later => simp [Outcome.extend, bind, Except.bind, pure, Except.pure]
    | some first =>
      by_cases hsame : first.isSome = true ∧ first = ctx.declOf h
      · obtain ⟨hknown, rfl⟩ := hsame
        refine Or.inl ⟨⟨[], 1, out.register⟩, ?_, fun hs => ?_⟩
        · simpa [Outcome.extend] using Run.reuse hrun hb hheld hknown
        · rw [ctx.outcome_describe_reuse hb hheld hknown]
          cases (ctx.describe out.register hs).outcome with
          | error e => rfl
          | ok later =>
            simp [Outcome.extend, bind, Except.bind, pure, Except.pure, Nat.add_comm]
      · exact Or.inr ⟨_, .taken hb hheld hsame, fun hs => ctx.outcome_describe_taken hb hheld hsame⟩

/-- **The recursion does these steps and no others**: from where a run has come to, it either goes
on to the end of the list, or it comes to a component that stops it. -/
theorem describe_run {done : List Nat} {out : Outcome} (hrun : ctx.Run done out) (hs : List Nat) :
    (∃ later, (ctx.describe out.register hs).outcome = .ok later ∧
      ctx.Run (done ++ hs) (out.extend later)) ∨
    (∃ e pre h post mid, (ctx.describe out.register hs).outcome = .error e ∧
      hs = pre ++ h :: post ∧ ctx.Run (done ++ pre) mid ∧ ctx.Stop mid h e) := by
  induction hs generalizing done out with
  | nil =>
    refine Or.inl ⟨⟨[], 0, out.register⟩, rfl, ?_⟩
    simpa [Outcome.extend] using hrun
  | cons h hs ih =>
    rcases ctx.describe_cons hrun h with ⟨part, hrun', hcons⟩ | ⟨e, hstop, hcons⟩
    -- The rest of the list is described from the register that the run has come to.
    · rcases ih hrun' with ⟨later, hok, hrest⟩ | ⟨e, pre, g, post, mid, herr, hpre, hmid, hstop⟩
      · refine Or.inl ⟨part.extend later, ?_, ?_⟩
        · rw [hcons]
          exact congrArg (part.extend <$> ·) hok
        · simpa [Outcome.extend, List.append_assoc, Nat.add_assoc] using hrest
      · refine Or.inr ⟨e, h :: pre, g, post, mid, ?_, ?_, ?_, hstop⟩
        · rw [hcons]
          exact congrArg (part.extend <$> ·) herr
        · rw [hpre, List.cons_append]
        · simpa [List.append_assoc] using hmid
    · refine Or.inr ⟨e, [], h, hs, out, hcons hs, rfl, ?_, hstop⟩
      simpa using hrun

theorem run_of_describe {hs : List Nat} {out : Outcome}
    (hok : (ctx.describe .empty hs).outcome = .ok out) : ctx.Run hs out := by
  rcases ctx.describe_run .start hs with ⟨later, hlater, hrun⟩ | ⟨e, _, _, _, _, herr, _⟩
  · obtain rfl := Except.ok.inj (hok.symm.trans hlater)
    simpa [Outcome.extend] using hrun
  · rw [hok] at herr
    cases herr

theorem stop_of_describe {hs : List Nat} {e : Failure}
    (herr : (ctx.describe .empty hs).outcome = .error e) :
    ∃ pre h post mid, hs = pre ++ h :: post ∧ ctx.Run pre mid ∧ ctx.Stop mid h e := by
  rcases ctx.describe_run .start hs with
    ⟨later, hlater, _⟩ | ⟨e', pre, h, post, mid, herr', hs', hmid, hstop⟩
  · rw [herr] at hlater
    cases hlater
  · obtain rfl := Except.error.inj (herr.symm.trans herr')
    exact ⟨pre, h, post, mid, hs', by simpa using hmid, hstop⟩

end Context

end RegLayer.Classes
