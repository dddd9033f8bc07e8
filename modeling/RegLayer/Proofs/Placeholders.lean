/-
# `RegLayer.Proofs.Placeholders` — a template is filled in once, from the left

What a placeholder is, is said of its text alone: two opening braces, white space, the name of a
variable, white space, two closing braces (`Placeholder`).  The reader takes exactly such a text
from the front (`placeholder?_eq_some_iff`).

Filling in goes from the left and takes what it finds first, so a placeholder could be lost to one
that begins before it and reaches into it.  None does: behind its first two characters a
placeholder has no opening brace, and those two are followed by something else
(`prefix_of_placeholder`).  Hence what stands before a placeholder is filled in as if nothing
stood behind it (`expand_append`), which is the step from which the main result is put together.

`filled_in_one_pass` says of every template and all variables: a text without placeholders is
kept; a template is filled in at each of its placeholders by the value, between what is before and
after it; it fails exactly if some name has no value, and then for the first such name.
-/
import Mathlib.Data.List.TakeWhile
import RegLayer.Banner
import RegLayer.Proofs.Outcome
import RegLayer.Proofs.Text.Numbers

namespace RegLayer.Banner

open Text

/-! ## What a placeholder is -/

/-- The name of a variable: a letter of ASCII or an underscore, and then any number of these and of
digits. -/
def IsName (cs : List Char) : Prop :=
  ∃ c rest, cs = c :: rest ∧ isNameStart c = true ∧ ∀ d ∈ rest, isNameChar d = true

/-- The text asks for the value of a variable, and there is nothing else in it. -/
inductive Placeholder (name : String) : String → Prop
  | intro (left right : String) : (∀ c ∈ left.toList, isBlank c = true) → IsName name.toList →
      (∀ c ∈ right.toList, isBlank c = true) →
      Placeholder name ("\x7b\x7b" ++ left ++ name ++ right ++ "\x7d\x7d")

/-- The template asks for the value of `name` between `before` and `after`. -/
def AsksFor (name before after template : String) : Prop :=
  ∃ ph, Placeholder name ph ∧ template = before ++ ph ++ after

theorem apart_of_isNameChar {c : Char} :
    isNameChar c = true → isBlank c = false ∧ c ≠ '\x7b' := by
  intro hc
  refine ⟨(apart_of_isAsciiWordChar hc).1, ?_⟩
  rintro rfl
  exact absurd hc (by decide)

theorem isNameChar_of_isNameStart {c : Char} : isNameStart c = true → isNameChar c = true := by
  intro hc
  simp only [isNameStart, Bool.or_eq_true] at hc
  simp only [isNameChar, Char.isAlphanum, Bool.or_eq_true]
  exact hc.imp_left Or.inl

theorem IsName.isNameChar {cs : List Char} : IsName cs → ∀ c ∈ cs, isNameChar c = true := by
  rintro ⟨c, rest, rfl, hstart, hrest⟩
  exact List.forall_mem_cons.2 ⟨isNameChar_of_isNameStart hstart, hrest⟩

theorem Placeholder.inner {name ph : String} : Placeholder name ph →
    ∃ inner, ph.toList = '\x7b' :: '\x7b' :: inner ∧ inner ≠ [] ∧ '\x7b' ∉ inner := by
  rintro ⟨left, right, hleft, hname, hright⟩
  refine ⟨left.toList ++ name.toList ++ right.toList ++ ['\x7d', '\x7d'], by simp, by simp, ?_⟩
  have hblank : isBlank '\x7b' = false := by decide
  simp only [List.mem_append, List.mem_cons, List.not_mem_nil, or_false, not_or]
  refine ⟨⟨⟨?_, ?_⟩, ?_⟩, by decide, by decide⟩
  · exact fun hmem => absurd (hleft _ hmem) (by simp [hblank])
  · exact fun hmem => (apart_of_isNameChar (hname.isNameChar _ hmem)).2 rfl
  · exact fun hmem => absurd (hright _ hmem) (by simp [hblank])

theorem Placeholder.closed {name ph : String} : Placeholder name ph →
    ∃ front, ph.toList = front ++ ['\x7d'] := by
  rintro ⟨left, right, _, _, _⟩
  exact ⟨'\x7b' :: '\x7b' :: (left.toList ++ name.toList ++ right.toList ++ ['\x7d']), by simp⟩

/-! ## Reading a placeholder -/

theorem takeWhile_dropWhile_of_stop {α : Type} {p : α → Bool} {l r : List α}
    (hl : ∀ a ∈ l, p a = true) (hr : ∀ a ∈ r.head?, p a = false) :
    (l ++ r).takeWhile p = l ∧ (l ++ r).dropWhile p = r := by
  rw [List.dropWhile_append_of_pos hl, dropWhile_of_head hr, List.takeWhile_append_of_pos hl]
  cases r with
  | nil => simp
  | cons a r => simp [hr a rfl]

theorem closing?_eq_some_iff {cs rest : List Char} :
    closing? cs = some rest ↔
      ∃ right, (∀ c ∈ right, isBlank c = true) ∧ cs = right ++ '\x7d' :: '\x7d' :: rest := by
  constructor
  · intro h
    unfold closing? at h
    split at h
    · next heq =>
      obtain rfl := Option.some.inj h
      refine ⟨cs.takeWhile isBlank, fun _ => List.mem_takeWhile_imp, ?_⟩
      rw [← heq, List.takeWhile_append_dropWhile]
    · cases h
  · rintro ⟨right, hright, rfl⟩
    have hbrace : isBlank '\x7d' = false := by decide
    have hdrop := (takeWhile_dropWhile_of_stop (r := '\x7d' :: '\x7d' :: rest) hright
      (by simp [hbrace])).2
    simp only [closing?, hdrop]

theorem nameAndClosing?_eq_some_iff {cs name rest : List Char} :
    nameAndClosing? cs = some (name, rest) ↔
      ∃ left right, (∀ c ∈ left, isBlank c = true) ∧ IsName name ∧
        (∀ c ∈ right, isBlank c = true) ∧
        cs = left ++ (name ++ (right ++ '\x7d' :: '\x7d' :: rest)) := by
  constructor
  · intro h
    unfold nameAndClosing? at h
    split at h
    · next c tail heq =>
      split at h
      · next hstart =>
        obtain ⟨behind, hbehind, hpair⟩ := Option.map_eq_some_iff.1 h
        obtain ⟨rfl, rfl⟩ := Prod.mk.inj hpair
        obtain ⟨right, hright, hdrop⟩ := closing?_eq_some_iff.1 hbehind
        refine ⟨cs.takeWhile isBlank, right, fun _ => List.mem_takeWhile_imp,
          ⟨c, _, rfl, hstart, fun _ => List.mem_takeWhile_imp⟩, hright, ?_⟩
        rw [← hdrop, List.cons_append, List.takeWhile_append_dropWhile, ← heq,
          List.takeWhile_append_dropWhile]
      · cases h
    · cases h
  · rintro ⟨left, right, hleft, ⟨c, tail, rfl, hstart, htail⟩, hright, rfl⟩
    have hblank : isBlank c = false := (apart_of_isNameChar (isNameChar_of_isNameStart hstart)).1
    -- What follows the name ends it: white space or a closing brace.
    have hstop : ∀ a ∈ (right ++ '\x7d' :: '\x7d' :: rest).head?, isNameChar a = false := by
      cases right with
      | nil => simp; decide
      | cons b right =>
        have hb : isBlank b = true := hright b List.mem_cons_self
        intro a ha
        obtain rfl : b = a := by simpa using ha
        by_contra hchar
        simp [(apart_of_isNameChar (by simpa using hchar)).1] at hb
    have hskip := (takeWhile_dropWhile_of_stop
      (r := c :: tail ++ (right ++ '\x7d' :: '\x7d' :: rest)) hleft (by simp [hblank])).2
    obtain ⟨htake, hdrop⟩ := takeWhile_dropWhile_of_stop htail hstop
    rw [nameAndClosing?, hskip]
    simp only [List.cons_append, hstart, if_true, htake, hdrop]
    rw [closing?_eq_some_iff.2 ⟨right, hright, rfl⟩]
    rfl

/-- **The reader takes a placeholder from the front, and nothing else.** -/
theorem placeholder?_eq_some_iff {cs name rest : List Char} :
    placeholder? cs = some (name, rest) ↔
      ∃ ph, Placeholder (String.ofList name) ph ∧ cs = ph.toList ++ rest := by
  constructor
  · intro h
    unfold placeholder? at h
    split at h
    · obtain ⟨left, right, hleft, hname, hright, rfl⟩ := nameAndClosing?_eq_some_iff.1 h
      refine ⟨_, .intro (String.ofList left) (String.ofList right) ?_ ?_ ?_, ?_⟩
      · simpa using hleft
      · simpa using hname
      · simpa using hright
      · simp
    · cases h
  · rintro ⟨_, ⟨left, right, hleft, hname, hright⟩, rfl⟩
    have hinner : nameAndClosing? (left.toList ++ (name ++ (right.toList ++
        '\x7d' :: '\x7d' :: rest))) = some (name, rest) :=
      nameAndClosing?_eq_some_iff.2 ⟨_, _, hleft, by simpa using hname, hright, rfl⟩
    simpa [placeholder?] using hinner

/-! ## Placeholders do not overlap -/

/-- A placeholder that begins before another one ends before it. -/
theorem prefix_of_placeholder {name name' ph ph' : String} {c : Char} {cs back rest : List Char} :
    Placeholder name ph → Placeholder name' ph' →
      c :: cs ++ (ph.toList ++ back) = ph'.toList ++ rest →
      ∃ between, c :: cs = ph'.toList ++ between ∧ rest = between ++ (ph.toList ++ back) := by
  intro hph hph' heq
  obtain ⟨inner, hinner, _, _⟩ := hph.inner
  obtain ⟨inner', hinner', hne, hbrace⟩ := hph'.inner
  rcases List.append_eq_append_iff.1 heq with ⟨more, hmore, htail⟩ | hbefore
  · -- The first one ends where the second one begins, or reaches into it by `more`.
    cases more with
    | nil => exact ⟨[], by simpa using hmore.symm, by simpa using htail.symm⟩
    | cons d more =>
      exfalso
      rw [hinner, List.cons_append, List.cons_append, List.cons_append, List.cons.injEq] at htail
      obtain ⟨rfl, htail⟩ := htail
      rw [hinner', List.cons_append, List.cons.injEq] at hmore
      cases cs with
      | nil =>
        -- It begins one character before, so its third character is an opening brace.
        obtain rfl := (List.cons.inj hmore.2).2
        cases inner' with
        | nil => exact hne rfl
        | cons e inner' =>
          obtain rfl := (List.cons.inj htail).1
          exact hbrace List.mem_cons_self
      | cons e cs =>
        have hinside := (List.cons.inj hmore.2).2
        exact hbrace (hinside ▸ List.mem_append_right cs List.mem_cons_self)
  · obtain ⟨between, hcs, hrest⟩ := hbefore
    exact ⟨between, hcs, hrest⟩

theorem placeholder?_append_of_some {cs name rest : List Char} (back : List Char) :
    placeholder? cs = some (name, rest) →
      placeholder? (cs ++ back) = some (name, rest ++ back) := by
  intro h
  obtain ⟨ph, hph, rfl⟩ := placeholder?_eq_some_iff.1 h
  exact placeholder?_eq_some_iff.2 ⟨ph, hph, List.append_assoc ..⟩

theorem placeholder?_append_of_none {name ph : String} {c : Char} {cs : List Char}
    (back : List Char) : Placeholder name ph → placeholder? (c :: cs) = none →
      placeholder? (c :: cs ++ (ph.toList ++ back)) = none := by
  intro hph hnone
  -- A placeholder at the front would end before `ph` begins, and so would be there without it.
  by_contra hsome
  obtain ⟨⟨name', rest⟩, hread⟩ := Option.ne_none_iff_exists'.1 hsome
  obtain ⟨ph', hph', heq⟩ := placeholder?_eq_some_iff.1 hread
  obtain ⟨between, hcs, _⟩ := prefix_of_placeholder hph hph' heq
  have hfront := placeholder?_eq_some_iff.2 ⟨ph', hph', hcs⟩
  simp [hnone] at hfront

/-! ## Filling in from the left -/

variable {vars : Variables}

theorem expand_nil (vars : Variables) : expand vars [] = .ok [] := by
  rw [expand]
  rfl

theorem expand_cons {c : Char} {cs : List Char} :
    placeholder? (c :: cs) = none → expand vars (c :: cs) = (c :: ·) <$> expand vars cs := by
  intro h
  rw [expand]
  split
  · next heq => simp [h] at heq
  · rfl

theorem expand_placeholder {cs name rest : List Char} :
    placeholder? cs = some (name, rest) → expand vars cs =
      match vars.get? (String.ofList name) with
      | some value => (value.toList ++ ·) <$> expand vars rest
      | none => .error (.fault (.undefinedVariable (String.ofList name))) := by
  intro h
  rw [expand]
  split
  · next heq =>
    obtain ⟨rfl, rfl⟩ := Prod.mk.inj (Option.some.inj (heq.symm.trans h))
    rfl
  · next heq => simp [h] at heq

/-- **What stands before a placeholder is filled in as if nothing stood behind it.** -/
theorem expand_append (vars : Variables) {name ph : String} (front back : List Char) :
    Placeholder name ph → expand vars (front ++ (ph.toList ++ back)) =
      expand vars front >>= fun out => (out ++ ·) <$> expand vars (ph.toList ++ back) := by
  intro hph
  fun_induction expand vars front with
  | case1 cs name' rest hp value hvalue ih =>
    rw [expand_placeholder (placeholder?_append_of_some _ hp), hvalue]
    simp only [ih, map_bind, bind_map_left, Functor.map_map, List.append_assoc]
  | case2 cs name' rest hp hnone =>
    rw [expand_placeholder (placeholder?_append_of_some _ hp), hnone]
    rfl
  | case3 hp => exact (id_map _).symm
  | case4 c cs hp ih =>
    have hnone := placeholder?_append_of_none back hph hp
    rw [List.cons_append] at hnone ⊢
    rw [expand_cons hnone, ih]
    simp only [map_bind, bind_map_left, Functor.map_map, List.cons_append]

theorem expand_of_plain {cs : List Char} :
    (∀ tail, tail <:+ cs → placeholder? tail = none) → expand vars cs = .ok cs := by
  intro hplain
  induction cs with
  | nil => exact expand_nil vars
  | cons c cs ih =>
    rw [expand_cons (hplain _ List.suffix_rfl),
      ih fun tail htail => hplain tail (htail.trans (List.suffix_cons c cs))]
    rfl

/-- **What cannot be filled in asks for a variable without a value**, and whatever stands before
that place can be filled in. -/
theorem of_expand_eq_error {cs : List Char} {e : Failure} : expand vars cs = .error e →
    ∃ front tail name rest out, cs = front ++ tail ∧ placeholder? tail = some (name, rest) ∧
      expand vars front = .ok out ∧ vars.get? (String.ofList name) = none ∧
      e = .fault (.undefinedVariable (String.ofList name)) := by
  intro h
  fun_induction expand vars cs with
  | case1 cs name' rest' hp value hvalue ih =>
    obtain ⟨front, tail, name, rest, out, rfl, htail, hfront, hnone, he⟩ := ih (map_eq_error.1 h)
    obtain ⟨ph, hph, rfl⟩ := placeholder?_eq_some_iff.1 hp
    refine ⟨ph.toList ++ front, tail, name, rest, value.toList ++ out, by simp, htail, ?_, hnone,
      he⟩
    rw [expand_placeholder (placeholder?_eq_some_iff.2 ⟨ph, hph, rfl⟩), hvalue]
    exact map_eq_ok.2 ⟨out, hfront, rfl⟩
  | case2 cs name rest hp hnone =>
    exact ⟨[], cs, name, rest, [], rfl, hp, expand_nil vars, hnone, (Except.error.inj h).symm⟩
  | case3 hp => cases h
  | case4 c cs hp ih =>
    obtain ⟨front, tail, name, rest, out, rfl, htail, hfront, hnone, he⟩ := ih (map_eq_error.1 h)
    have hplain : placeholder? (c :: front) = none := by
      by_contra hsome
      obtain ⟨p, hread⟩ := Option.ne_none_iff_exists'.1 hsome
      have hwhole := placeholder?_append_of_some tail hread
      simp [hp] at hwhole
    refine ⟨c :: front, tail, name, rest, c :: out, rfl, htail, ?_, hnone, he⟩
    rw [expand_cons hplain]
    exact map_eq_ok.2 ⟨out, hfront, rfl⟩

/-! ## Whole templates -/

theorem asksFor_iff {name before after template : String} : AsksFor name before after template ↔
    ∃ tail, template.toList = before.toList ++ tail ∧
      placeholder? tail = some (name.toList, after.toList) := by
  constructor
  · rintro ⟨ph, hph, rfl⟩
    exact ⟨ph.toList ++ after.toList, by simp,
      placeholder?_eq_some_iff.2 ⟨ph, by simpa using hph, rfl⟩⟩
  · rintro ⟨tail, htemplate, htail⟩
    obtain ⟨ph, hph, rfl⟩ := placeholder?_eq_some_iff.1 htail
    refine ⟨ph, by simpa using hph, String.toList_injective ?_⟩
    simpa using htemplate

theorem fill_eq_ok_iff {name before after template out : String}
    (h : AsksFor name before after template) : fill template vars = .ok out ↔
      ∃ x value y, fill before vars = .ok x ∧ vars.get? name = some value ∧
        fill after vars = .ok y ∧ out = x ++ value ++ y := by
  obtain ⟨ph, hph, rfl⟩ := h
  have hopens : placeholder? (ph.toList ++ after.toList) = some (name.toList, after.toList) :=
    placeholder?_eq_some_iff.2 ⟨ph, by simpa using hph, rfl⟩
  have hsplit := expand_append vars before.toList after.toList hph
  rw [expand_placeholder hopens, String.ofList_toList] at hsplit
  simp only [fill, String.toList_append, List.append_assoc, hsplit, map_eq_ok, bind_eq_ok]
  cases vars.get? name with
  | none => simp
  | some value =>
    simp only [map_eq_ok]
    constructor
    · rintro ⟨_, ⟨x, hx, _, ⟨y, hy, rfl⟩, rfl⟩, rfl⟩
      exact ⟨_, value, _, ⟨x, hx, rfl⟩, rfl, ⟨y, hy, rfl⟩, by simp [String.append_assoc]⟩
    · rintro ⟨_, _, _, ⟨x, hx, rfl⟩, hvalue, ⟨y, hy, rfl⟩, rfl⟩
      obtain rfl := Option.some.inj hvalue
      exact ⟨_, ⟨x, hx, _, ⟨y, hy, rfl⟩, rfl⟩, by simp [String.append_assoc]⟩

theorem fill_of_plain {template : String} :
    (∀ name before after, ¬AsksFor name before after template) →
      fill template vars = .ok template := by
  intro hplain
  have hread : ∀ tail, tail <:+ template.toList → placeholder? tail = none := by
    rintro tail ⟨front, hfront⟩
    by_contra hsome
    obtain ⟨⟨name, rest⟩, hread⟩ := Option.ne_none_iff_exists'.1 hsome
    refine hplain (String.ofList name) (String.ofList front) (String.ofList rest)
      (asksFor_iff.2 ⟨tail, ?_, ?_⟩)
    · simpa using hfront.symm
    · simpa using hread
  rw [fill, expand_of_plain hread]
  exact congrArg Except.ok String.ofList_toList

theorem length_le_of_fill {name before after name' before' after' template out : String} :
    AsksFor name before after template → fill before vars = .ok out →
      AsksFor name' before' after' template → vars.get? name' = none →
      before.length ≤ before'.length := by
  rintro ⟨ph, hph, heq⟩ hout ⟨ph', hph', heq'⟩ hnone
  by_contra hlt
  have hlists : before.toList ++ (ph.toList ++ after.toList) =
      before'.toList ++ (ph'.toList ++ after'.toList) := by
    simpa using congrArg String.toList (heq.symm.trans heq')
  rcases List.append_eq_append_iff.1 hlists with ⟨more, hmore, _⟩ | ⟨more, hmore, htail⟩
  · have hlength := congrArg List.length hmore
    simp only [List.length_append, String.length_toList] at hlength
    omega
  · cases more with
    | nil =>
      have hlength := congrArg List.length hmore
      simp only [List.append_nil, String.length_toList] at hlength
      omega
    | cons c more =>
      obtain ⟨between, hfront, _⟩ := prefix_of_placeholder hph hph' htail.symm
      have hasks : AsksFor name' before' (String.ofList between) before := by
        refine ⟨ph', hph', String.toList_injective ?_⟩
        simp [hmore, hfront]
      obtain ⟨_, value, _, _, hvalue, _⟩ := (fill_eq_ok_iff hasks).1 hout
      simp [hnone] at hvalue

theorem of_fill_eq_error {template : String} {e : Failure} : fill template vars = .error e →
    ∃ name before after out, AsksFor name before after template ∧ fill before vars = .ok out ∧
      vars.get? name = none ∧ e = .fault (.undefinedVariable name) := by
  intro h
  obtain ⟨front, tail, name, rest, out, htemplate, htail, hfront, hnone, he⟩ :=
    of_expand_eq_error (map_eq_error.1 h)
  refine ⟨String.ofList name, String.ofList front, String.ofList rest, String.ofList out,
    asksFor_iff.2 ⟨tail, by simpa using htemplate, by simpa using htail⟩, ?_, hnone, he⟩
  rw [fill, String.toList_ofList, hfront]
  rfl

/-- **A template is filled in once, from the left.**  Where it asks for nothing, it stays as it is.
Wherever it asks for a variable, it is filled in exactly if the parts around that place are and the
variable has a value; the result has the value there as it is, between those parts filled in.  It
cannot be filled in exactly if it asks for a variable without a value, and then the first such
variable is named. -/
theorem filled_in_one_pass (vars : Variables) (template : String) :
    ((∀ name before after, ¬AsksFor name before after template) →
      fill template vars = .ok template) ∧
    (∀ name before after, AsksFor name before after template → ∀ out,
      (fill template vars = .ok out ↔
        ∃ x value y, fill before vars = .ok x ∧ vars.get? name = some value ∧
          fill after vars = .ok y ∧ out = x ++ value ++ y)) ∧
    ((∃ e, fill template vars = .error e) ↔
      ∃ name before after, AsksFor name before after template ∧ vars.get? name = none) ∧
    ∀ e, fill template vars = .error e →
      ∃ name before after, AsksFor name before after template ∧ vars.get? name = none ∧
        e = .fault (.undefinedVariable name) ∧
        ∀ name' before' after', AsksFor name' before' after' template →
          vars.get? name' = none → before.length ≤ before'.length := by
  refine ⟨fill_of_plain, fun _ _ _ h _ => fill_eq_ok_iff h, ⟨?_, ?_⟩, ?_⟩
  · rintro ⟨e, he⟩
    obtain ⟨name, before, after, _, hasks, _, hnone, _⟩ := of_fill_eq_error he
    exact ⟨name, before, after, hasks, hnone⟩
  · rintro ⟨name, before, after, hasks, hnone⟩
    cases hfill : fill template vars with
    | error e => exact ⟨e, rfl⟩
    | ok out =>
      obtain ⟨_, value, _, _, hvalue, _⟩ := (fill_eq_ok_iff hasks).1 hfill
      simp [hnone] at hvalue
  · intro e he
    obtain ⟨name, before, after, out, hasks, hbefore, hnone, rfl⟩ := of_fill_eq_error he
    exact ⟨name, before, after, hasks, hnone, rfl,
      fun _ _ _ => length_le_of_fill hasks hbefore⟩

/-- Variables of which one has a value with braces of its own. -/
def braced : Variables :=
  ⟨[("top_name", "\x7b\x7b version \x7d\x7d"), ("version", "0.1.0")]⟩

theorem asksFor_topName : AsksFor "top_name" "\x7b" "\x7d \x7b\x7bversion\x7d\x7d"
    "\x7b\x7b\x7b top_name \x7d\x7d\x7d \x7b\x7bversion\x7d\x7d" :=
  ⟨_, .intro " " " " (List.all_eq_true.1 (by decide))
    ⟨'t', _, rfl, by decide, List.all_eq_true.1 (by decide)⟩ (List.all_eq_true.1 (by decide)),
    by decide⟩

/-- Braces around a placeholder and in the value of its variable stay as they are. -/
theorem filled_in_one_pass_braced :
    fill "\x7b\x7b\x7b top_name \x7d\x7d\x7d \x7b\x7bversion\x7d\x7d" braced =
      .ok "\x7b\x7b\x7b version \x7d\x7d\x7d 0.1.0" :=
  ((filled_in_one_pass braced _).2.1 _ _ _ asksFor_topName _).2
    ⟨"\x7b", "\x7b\x7b version \x7d\x7d", "\x7d 0.1.0", by decide +kernel, by decide,
      by decide +kernel, by decide⟩

end RegLayer.Banner
