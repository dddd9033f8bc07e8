/-
# `RegLayer.Proofs.Options` — each option holds what was chosen for it last

A change chooses a value for one option: by the option's name and a text, or as one of the two
views.  Which option and which value is said by `Chooses`, without the options that are changed.

A change is accepted exactly if it chooses something, and then it sets that option and no other
(`update_of_chooses`, `update_cases`); if it is refused, the options that it returns beside its
answer are those that it was given (`update_of_error`).  In a run of changes an option therefore
keeps its value until the next change that chooses one for it (`get_changes_of_none`), and holds
the last one in the end (`get_changes_iff`).  The two views are two of the switches under other
words.

`options_hold_last_choice` is the sum of this, for all options, changes and runs of changes.
-/
import RegLayer.Options.Basic
import RegLayer.Proofs.Outcome

namespace RegLayer.Options

/-! ## The options, one by one -/

/-- The options. -/
inductive Item where
  | asPackage
  | shareClasses
  | useFactory
  | upperCaseNames
  | coverage
  | enhancedRegisters
  | templateDir
  | userVariables
  deriving DecidableEq, Repr

/-- What an option holds. -/
inductive Setting where
  | switch (b : Bool)
  | directory (path : Option String)
  | variables (vs : Variables)
  deriving DecidableEq, Repr

/-- What this option holds. -/
def get (o : Options) : Item → Setting
  | .asPackage => .switch o.asPackage
  | .shareClasses => .switch o.shareClasses
  | .useFactory => .switch o.useFactory
  | .upperCaseNames => .switch o.upperCaseNames
  | .coverage => .switch o.coverage
  | .enhancedRegisters => .switch o.enhancedRegisters
  | .templateDir => .directory o.templateDir
  | .userVariables => .variables o.userVariables

theorem get_injective : Function.Injective get := by
  intro o o' h
  have hall : ∀ i, o.get i = o'.get i := fun i => congrFun h i
  obtain ⟨⟩ := o
  obtain ⟨⟩ := o'
  have h₁ := hall .asPackage
  have h₂ := hall .shareClasses
  have h₃ := hall .useFactory
  have h₄ := hall .upperCaseNames
  have h₅ := hall .coverage
  have h₆ := hall .enhancedRegisters
  have h₇ := hall .templateDir
  have h₈ := hall .userVariables
  simp only [get, Setting.switch.injEq, Setting.directory.injEq, Setting.variables.injEq] at *
  simp [*]

/-! ## One change -/

/-- The options that are switches, by name. -/
def switchItems : List (String × Item) :=
  [("export_as_package", .asPackage), ("reuse_class_definitions", .shareClasses),
    ("use_uvm_factory", .useFactory), ("use_uppercase_inst_name", .upperCaseNames),
    ("has_coverage", .coverage), ("use_uvm_reg_enhanced", .enhancedRegisters)]

/-- The change chooses this value for this option. -/
inductive Chooses : Change → Item → Setting → Prop
  | switch {name value : String} {i : Item} {b : Bool} : (name, i) ∈ switchItems →
      switch? value = some b → Chooses (.set name value) i (.switch b)
  | directory (value : String) :
      Chooses (.set "user_template_dir" value) .templateDir (.directory (some value))
  | naming (style : NamingStyle) :
      Chooses (.naming style) .shareClasses (.switch (style == .lexical))
  | container (style : ContainerStyle) :
      Chooses (.container style) .asPackage (.switch (style == .package))

/-- `o'` is `o` with one option set to a value. -/
def Sets (o o' : Options) (i : Item) (v : Setting) : Prop :=
  ∀ j, o'.get j = if j = i then v else o.get j

/-- **What is chosen is set, and nothing else.** -/
theorem update_of_chooses (o : Options) {c : Change} {i : Item} {v : Setting} :
    Chooses c i v → ∃ o', o.update c = (.ok (), o') ∧ Sets o o' i v := by
  intro h
  cases h with
  | @switch name value _ b hname hb =>
    have hread : readSwitch name value = .ok b := by simp [readSwitch, hb]
    simp only [switchItems, List.mem_cons, Prod.mk.injEq, List.not_mem_nil, or_false] at hname
    rcases hname with ⟨rfl, rfl⟩ | ⟨rfl, rfl⟩ | ⟨rfl, rfl⟩ | ⟨rfl, rfl⟩ | ⟨rfl, rfl⟩ | ⟨rfl, rfl⟩
    all_goals
      simp only [update, setByName, switchSetter?, hread]
      exact ⟨_, rfl, by rintro ⟨⟩ <;> rfl⟩
  | directory value => exact ⟨_, rfl, by rintro ⟨⟩ <;> rfl⟩
  | naming style => exact ⟨_, rfl, by rintro ⟨⟩ <;> rfl⟩
  | container style => exact ⟨_, rfl, by rintro ⟨⟩ <;> rfl⟩

theorem mem_switchItems_of_setter {name : String} {setter : Options → Bool → Options} :
    switchSetter? name = some setter → ∃ i, (name, i) ∈ switchItems := by
  intro h
  unfold switchSetter? at h
  split at h
  case h_7 => cases h
  all_goals simp [switchItems]

/-- **What a change does that is named after an option**: it chooses something, or it is refused
with a fault of the configuration and leaves everything as it is. -/
theorem setByName_cases (o : Options) (name value : String) :
    (∃ i v, Chooses (.set name value) i v) ∨
      ∃ f : Fault, f.kind = .invalidConfiguration ∧
        o.setByName name value = (.error (.fault f), o) := by
  unfold setByName
  cases hsetter : switchSetter? name with
  | some setter =>
    cases hvalue : switch? value with
    | some b =>
      obtain ⟨i, hi⟩ := mem_switchItems_of_setter hsetter
      exact Or.inl ⟨i, _, .switch hi hvalue⟩
    | none => exact Or.inr ⟨.notASwitch name value, rfl, by simp [readSwitch, hvalue]⟩
  | none =>
    by_cases hname : name = templateDirName
    · subst hname
      exact Or.inl ⟨_, _, .directory value⟩
    · exact Or.inr ⟨.unknownOption name, rfl, if_neg hname⟩

theorem update_cases (o : Options) (c : Change) :
    (∃ i v, Chooses c i v) ∨
      ∃ f : Fault, f.kind = .invalidConfiguration ∧ o.update c = (.error (.fault f), o) := by
  cases c with
  | set name value => exact setByName_cases o name value
  | naming style => exact Or.inl ⟨_, _, .naming style⟩
  | container style => exact Or.inl ⟨_, _, .container style⟩

theorem update_ok_iff {o : Options} {c : Change} :
    (o.update c).1 = .ok () ↔ ∃ i v, Chooses c i v := by
  constructor
  · intro hok
    refine (update_cases o c).resolve_right ?_
    rintro ⟨f, _, hrefused⟩
    rw [hrefused] at hok
    cases hok
  · rintro ⟨i, v, h⟩
    obtain ⟨o', hc, _⟩ := update_of_chooses o h
    rw [hc]

/-- **A change that is refused leaves all options as they are.** -/
theorem update_of_error {o : Options} {c : Change} {e : Failure} :
    (o.update c).1 = .error e →
      (o.update c).2 = o ∧ ∃ f, e = .fault f ∧ f.kind = .invalidConfiguration := by
  intro he
  rcases update_cases o c with hchooses | ⟨f, hkind, hrefused⟩
  · rw [update_ok_iff.2 hchooses] at he
    cases he
  · rw [hrefused] at he ⊢
    exact ⟨rfl, f, (Except.error.inj he).symm, hkind⟩

theorem get_changeOrKeep_of_not (o : Options) {c : Change} {i : Item} :
    (∀ v, ¬Chooses c i v) → (o.changeOrKeep c).get i = o.get i := by
  intro hnot
  unfold changeOrKeep
  cases hc : (o.update c).1 with
  | error e => rw [(update_of_error hc).1]
  | ok _ =>
    obtain ⟨j, v, hj⟩ := update_ok_iff.1 hc
    obtain ⟨o', hc', hsets⟩ := update_of_chooses o hj
    have hne : i ≠ j := fun heq => hnot v (heq ▸ hj)
    rw [hc', hsets i, if_neg hne]

theorem get_changeOrKeep_of_chooses (o : Options) {c : Change} {i : Item} {v : Setting} :
    Chooses c i v → (o.changeOrKeep c).get i = v := by
  intro h
  obtain ⟨o', hc, hsets⟩ := update_of_chooses o h
  unfold changeOrKeep
  rw [hc, hsets i, if_pos rfl]

/-! ## A run of changes -/

/-- The options after a run of changes, of which some may be refused. -/
def changes (o : Options) (cs : List Change) : Options :=
  cs.foldl changeOrKeep o

/-- Nothing in the run chooses a value for the option. -/
def NoChoice (cs : List Change) (i : Item) : Prop :=
  ∀ c ∈ cs, ∀ v, ¬Chooses c i v

/-- The last change of the run that chooses a value for the option chooses this one. -/
def LastChoice (cs : List Change) (i : Item) (v : Setting) : Prop :=
  ∃ before c after, cs = before ++ c :: after ∧ Chooses c i v ∧ NoChoice after i

theorem get_changes_of_none (o : Options) {cs : List Change} {i : Item} :
    NoChoice cs i → (o.changes cs).get i = o.get i := by
  intro hnone
  induction cs generalizing o with
  | nil => rfl
  | cons c cs ih =>
    obtain ⟨hc, hcs⟩ := List.forall_mem_cons.1 hnone
    exact (ih (o.changeOrKeep c) hcs).trans (get_changeOrKeep_of_not o hc)

theorem get_changes_of_last (o : Options) {cs : List Change} {i : Item} {v : Setting} :
    LastChoice cs i v → (o.changes cs).get i = v := by
  rintro ⟨before, c, after, rfl, hc, hafter⟩
  have hrun : o.changes (before ++ c :: after) =
      ((o.changes before).changeOrKeep c).changes after := by
    simp [changes]
  rw [hrun, get_changes_of_none _ hafter, get_changeOrKeep_of_chooses _ hc]

theorem exists_lastChoice_or (cs : List Change) (i : Item) :
    (∃ v, LastChoice cs i v) ∨ NoChoice cs i := by
  induction cs with
  | nil => exact Or.inr fun _ hc => absurd hc List.not_mem_nil
  | cons c cs ih =>
    rcases ih with ⟨v, before, d, after, rfl, hd, hafter⟩ | hnone
    · exact Or.inl ⟨v, c :: before, d, after, rfl, hd, hafter⟩
    · by_cases hc : ∃ v, Chooses c i v
      · obtain ⟨v, hv⟩ := hc
        exact Or.inl ⟨v, [], c, cs, rfl, hv, hnone⟩
      · exact Or.inr (List.forall_mem_cons.2 ⟨not_exists.1 hc, hnone⟩)

theorem get_changes_iff (o : Options) (cs : List Change) (i : Item) (v : Setting) :
    (o.changes cs).get i = v ↔ LastChoice cs i v ∨ NoChoice cs i ∧ o.get i = v := by
  constructor
  · rintro rfl
    rcases exists_lastChoice_or cs i with ⟨v, hlast⟩ | hnone
    · exact Or.inl (get_changes_of_last o hlast ▸ hlast)
    · exact Or.inr ⟨hnone, (get_changes_of_none o hnone).symm⟩
  · rintro (hlast | ⟨hnone, rfl⟩)
    · exact get_changes_of_last o hlast
    · exact get_changes_of_none o hnone

/-! ## The views -/

theorem namingStyle_eq_iff {o : Options} {style : NamingStyle} :
    o.namingStyle = style ↔ o.get .shareClasses = .switch (style == .lexical) := by
  simp only [namingStyle, get]
  cases o.shareClasses <;> cases style <;> decide

theorem containerStyle_eq_iff {o : Options} {style : ContainerStyle} :
    o.containerStyle = style ↔ o.get .asPackage = .switch (style == .package) := by
  simp only [containerStyle, get]
  cases o.asPackage <;> cases style <;> decide

/-- **Each option holds what was chosen for it last.**  The options are the eight that there are.  A
change that chooses a value for one of them is accepted, and sets that one and no other.  No other
change is accepted, and one that is refused leaves all options as they are.  So after any run of
changes an option holds the value of the last change that chose one for it, and what it
held before if there is none; and the two views show what was chosen last, whichever way. -/
theorem options_hold_last_choice (o : Options) :
    Function.Injective get ∧
    (∀ c i v, Chooses c i v → ∃ o', o.update c = (.ok (), o') ∧ o'.get i = v ∧
      ∀ j, j ≠ i → o'.get j = o.get j) ∧
    (∀ c, (o.update c).1 = .ok () ↔ ∃ i v, Chooses c i v) ∧
    (∀ c e, (o.update c).1 = .error e → (o.update c).2 = o ∧
      ∃ f, e = .fault f ∧ f.kind = .invalidConfiguration) ∧
    (∀ cs i v, (o.changes cs).get i = v ↔ LastChoice cs i v ∨ NoChoice cs i ∧ o.get i = v) ∧
    (∀ cs style, (o.changes cs).namingStyle = style ↔
      LastChoice cs .shareClasses (.switch (style == .lexical)) ∨
        NoChoice cs .shareClasses ∧ o.namingStyle = style) ∧
    ∀ cs style, (o.changes cs).containerStyle = style ↔
      LastChoice cs .asPackage (.switch (style == .package)) ∨
        NoChoice cs .asPackage ∧ o.containerStyle = style := by
  refine ⟨get_injective, ?_, fun c => update_ok_iff, fun c e => update_of_error,
    get_changes_iff o, ?_, ?_⟩
  · intro c i v h
    obtain ⟨o', hc, hsets⟩ := update_of_chooses o h
    exact ⟨o', hc, (hsets i).trans (if_pos rfl), fun j hj => (hsets j).trans (if_neg hj)⟩
  · intro cs style
    rw [namingStyle_eq_iff, namingStyle_eq_iff, get_changes_iff]
  · intro cs style
    rw [containerStyle_eq_iff, containerStyle_eq_iff, get_changes_iff]

/-- Changes of the naming style by both ways, and two that are refused. -/
def twoWays : List Change :=
  [.set "reuse_class_definitions" " OFF ", .set "has_coverage" "maybe", .naming .lexical,
    .set "reuse_class_definitions" "perhaps"]

theorem noChoice_perhaps : NoChoice [.set "reuse_class_definitions" "perhaps"] .shareClasses := by
  intro c hc v hchooses
  obtain rfl := List.mem_singleton.1 hc
  have haccepted := (update_ok_iff (o := {})).2 ⟨_, _, hchooses⟩
  have hrefused : (({} : Options).update (.set "reuse_class_definitions" "perhaps")).1 =
      .error (.fault (.notASwitch "reuse_class_definitions" "perhaps")) := by decide
  rw [hrefused] at haccepted
  cases haccepted

theorem options_hold_last_choice_twoWays (o : Options) :
    (o.changes twoWays).namingStyle = .lexical :=
  ((options_hold_last_choice o).2.2.2.2.2.1 twoWays .lexical).2
    (Or.inl ⟨[_, _], _, _, rfl, .naming .lexical, noChoice_perhaps⟩)

end RegLayer.Options
