/-
# `RegLayer.Proofs.Banner` — where the banner ends and the code begins

A banner is put before the code as it is, and the code begins with the line that opens its
container.  That line has no line feed in it, whatever the file is called
(`newline_not_mem_upper`, `newline_not_mem_wordChars`), so what decides is the end of the banner:

    banner empty or ending its last line     ⟺   the opening line is a line of the text
    template ending its last line             ⟹   a banner that does, with any variables

The first is `opening_line_stands_alone`, which also says which line it is.  The second is
`Banner.endsLine_fill`: the last line feed of a template stands behind every placeholder, and what
stands behind every placeholder is kept (`expand_concat`).  A template that does not end its last
line, like a comment without a line feed, swallows the opening line
(`opening_line_can_be_swallowed`).

Taken as given: the layer has been rendered.  Nothing is asked of the model, of the name of the
output or of the variables.
-/
import RegLayer.Description
import RegLayer.Proofs.Layer
import RegLayer.Proofs.Placeholders
import RegLayer.Proofs.Text.Lines

namespace RegLayer

/-! ## Names without line feeds -/

namespace Text

theorem eq_ten_of_ofNat {n : Nat} : Char.ofNat n = '\n' → n = 10 := by
  intro h
  by_cases hvalid : n.isValidChar
  · have hn : Char.ofNat n = Char.ofNatAux n hvalid := dif_pos hvalid
    exact congrArg Char.toNat (hn.symm.trans h)
  · have hn : Char.ofNat n = '\x00' := dif_neg hvalid
    exact absurd (hn.symm.trans h) (by decide)

theorem newline_not_mem_upperChar {c : Char} : c ≠ '\n' → '\n' ∉ upperChar c := by
  intro hc hmem
  unfold upperChar at hmem
  split at hmem
  · next hascii =>
    have hall : ∀ n < 0x80, (Char.ofNat n).toUpper = '\n' → n = 10 := by decide
    have hten := hall c.toNat hascii
    rw [Char.ofNat_toNat] at hten
    exact hc (Char.toNat_inj.1 (hten (List.mem_singleton.1 hmem).symm))
  · unfold upperWide at hmem
    split at hmem
    · next ns hns =>
      have hall : ∀ p ∈ upperSequences, 10 ∉ p.2 := by decide +kernel
      obtain ⟨n, hn, hnewline⟩ := List.mem_map.1 hmem
      obtain ⟨before, behind, heq, _⟩ := List.lookup_eq_some_iff.1 hns
      refine hall (c.toNat, ns) (by simp [heq]) ?_
      rwa [← eq_ten_of_ofNat hnewline]
    · split at hmem
      · next n hn =>
        have hall : ∀ r ∈ upperRuns, 10 < r.target := by decide +kernel
        obtain ⟨r, hr, hshift⟩ := List.exists_of_findSome?_eq_some hn
        have hten := eq_ten_of_ofNat (List.mem_singleton.1 hmem).symm
        have htarget := hall r hr
        unfold CaseRun.shift? at hshift
        split at hshift
        · have := Option.some.inj hshift
          omega
        · cases hshift
      · exact hc (List.mem_singleton.1 hmem).symm

theorem newline_not_mem_upper {s : String} : '\n' ∉ s.toList → '\n' ∉ (upper s).toList := by
  intro hs hmem
  rw [upper, String.toList_ofList] at hmem
  obtain ⟨c, hc, hnewline⟩ := List.mem_flatMap.1 hmem
  exact newline_not_mem_upperChar (fun heq => hs (heq ▸ hc)) hnewline

/-- A line feed is no word character. -/
theorem newline_not_mem_wordChars (cs : List Char) : '\n' ∉ wordChars cs := by
  intro hmem
  obtain ⟨c, _, hc⟩ := List.mem_map.1 hmem
  split at hc
  · next hword =>
    rw [hc] at hword
    exact absurd hword (by decide)
  · exact absurd hc (by decide)

/-! ## Texts that end their last line -/

/-- The text is empty or ends in a line feed. -/
def EndsLine (s : String) : Prop :=
  ∀ c ∈ s.toList.getLast?, c = '\n'

instance (s : String) : Decidable (EndsLine s) :=
  decidable_of_iff (s.toList.getLast?.all (· == '\n') = true) (by
    rw [EndsLine]
    cases s.toList.getLast? <;> simp)

theorem endsLine_append (s : String) {t : String} : t ≠ "" → EndsLine t → EndsLine (s ++ t) := by
  intro hne h c hc
  have ht : t.toList ≠ [] := fun hnil => hne (String.toList_eq_nil_iff.1 hnil)
  rw [String.toList_append, List.getLast?_append_of_ne_nil _ ht] at hc
  exact h c hc

theorem exists_last_newline {cs : List Char} :
    '\n' ∈ cs → ∃ before last, cs = before ++ '\n' :: last ∧ '\n' ∉ last := by
  intro h
  obtain ⟨last, before, heq, hlast⟩ := List.eq_append_cons_of_mem (List.mem_reverse.2 h)
  refine ⟨before.reverse, last.reverse, ?_, by simpa using hlast⟩
  have hback := congrArg List.reverse heq
  simpa using hback

theorem eq_nil_of_getLast? {cs : List Char} :
    '\n' ∉ cs → (∀ c ∈ cs.getLast?, c = '\n') → cs = [] := by
  intro hcs hall
  cases hlast : cs.getLast? with
  | none => exact List.getLast?_eq_none_iff.1 hlast
  | some c =>
    have hc : c = '\n' := hall c hlast
    exact absurd (hc ▸ List.mem_of_getLast? hlast) hcs

theorem endsLine_iff_of_last {s : String} {before last : List Char}
    (heq : s.toList = before ++ '\n' :: last) (hlast : '\n' ∉ last) : EndsLine s ↔ last = [] := by
  constructor
  · intro h
    refine eq_nil_of_getLast? hlast fun c hc => h c ?_
    rw [heq, List.append_cons, List.getLast?_append, Option.mem_def.1 hc]
    rfl
  · rintro rfl c hc
    simpa [heq, eq_comm] using hc

theorem endsLine_iff_of_not_mem {s : String} :
    '\n' ∉ s.toList → (EndsLine s ↔ s = "") := by
  intro hs
  constructor
  · exact fun h => String.toList_eq_nil_iff.1 (eq_nil_of_getLast? hs h)
  · rintro rfl c hc
    cases hc

/-- **What is put behind a text goes on in its last piece.**  The pieces before that one are as many
as the text has line feeds, and the last one is empty exactly if the text ends its last line. -/
theorem exists_split_append (s : String) :
    ∃ front last, (last = "" ↔ EndsLine s) ∧ front.length = s.toList.count '\n' ∧
      ∀ l, '\n' ∉ l.toList → split '\n' (s ++ l) = front ++ [last ++ l] := by
  by_cases hs : '\n' ∈ s.toList
  · obtain ⟨before, last, heq, hlast⟩ := exists_last_newline hs
    refine ⟨split '\n' (String.ofList before), String.ofList last, ?_, ?_, ?_⟩
    · rw [endsLine_iff_of_last heq hlast, ← String.toList_eq_nil_iff, String.toList_ofList]
    · simp [split, length_cut, heq, List.count_eq_zero_of_not_mem hlast]
    · intro l hl
      have hline : '\n' ∉ (String.ofList last ++ l).toList := by simp [hlast, hl]
      have htext : s ++ l = String.ofList before ++ ("\n" ++ (String.ofList last ++ l)) := by
        apply String.toList_injective
        simp [heq]
      rw [htext, split_append_newline, split_of_not_mem hline]
  · refine ⟨[], s, (endsLine_iff_of_not_mem hs).symm, ?_, ?_⟩
    · simp [List.count_eq_zero_of_not_mem hs]
    · intro l hl
      exact split_of_not_mem (by simp [hs, hl])

theorem EndsLine.cases {s : String} : EndsLine s → s = "" ∨ ∃ cs, s.toList = cs ++ ['\n'] := by
  intro h
  rcases List.eq_nil_or_concat s.toList with hnil | ⟨cs, c, hcs⟩
  · exact Or.inl (String.toList_eq_nil_iff.1 hnil)
  · rw [List.concat_eq_append] at hcs
    have hc : c = '\n' := h c (by simp [hcs])
    exact Or.inr ⟨cs, hc ▸ hcs⟩

end Text

/-! ## Templates that end their last line -/

namespace Banner

open Text

theorem placeholder?_concat (cs : List Char) :
    placeholder? (cs ++ ['\n']) = (placeholder? cs).map fun p => (p.1, p.2 ++ ['\n']) := by
  cases hcs : placeholder? cs with
  | some p => exact placeholder?_append_of_some _ hcs
  | none =>
    by_contra hsome
    obtain ⟨⟨name, rest⟩, hread⟩ := Option.ne_none_iff_exists'.1 hsome
    obtain ⟨ph, hph, heq⟩ := placeholder?_eq_some_iff.1 hread
    obtain ⟨inner, hinner⟩ := hph.closed
    rcases List.eq_nil_or_concat rest with rfl | ⟨rest, c, rfl⟩
    · -- The placeholder would end in the line feed, and not in a brace.
      rw [hinner, List.append_nil] at heq
      exact absurd (List.append_inj' heq rfl).2 (by decide)
    · rw [List.concat_eq_append, ← List.append_assoc] at heq
      have hfront := placeholder?_eq_some_iff.2 ⟨ph, hph, (List.append_inj' heq rfl).1⟩
      simp [hcs] at hfront

variable {vars : Variables}

/-- **A line feed at the end of a template stays at the end.** -/
theorem expand_concat (vars : Variables) (cs : List Char) :
    expand vars (cs ++ ['\n']) = (· ++ ['\n']) <$> expand vars cs := by
  fun_induction expand vars cs with
  | case1 cs name rest hp value hvalue ih =>
    have hp' := placeholder?_concat cs
    rw [hp] at hp'
    rw [expand_placeholder hp', hvalue]
    simp [ih, Functor.map_map]
  | case2 cs name rest hp hnone =>
    have hp' := placeholder?_concat cs
    rw [hp] at hp'
    rw [expand_placeholder hp', hnone]
    rfl
  | case3 hp =>
    rw [List.nil_append, expand_cons (by rfl), expand_nil]
    rfl
  | case4 c cs hp ih =>
    have hp' := placeholder?_concat (c :: cs)
    rw [hp] at hp'
    have hcons : expand vars (c :: (cs ++ ['\n'])) = (c :: ·) <$> expand vars (cs ++ ['\n']) :=
      expand_cons hp'
    rw [List.cons_append, hcons, ih]
    simp [Functor.map_map]

/-- A template that ends its last line makes a banner that does. -/
theorem endsLine_fill {template banner : String} :
    fill template vars = .ok banner → EndsLine template → EndsLine banner := by
  intro h hends
  obtain ⟨cs, hcs, rfl⟩ := map_eq_ok.1 h
  rcases hends.cases with rfl | ⟨front, hfront⟩
  · obtain rfl : [] = cs := Except.ok.inj ((expand_nil vars).symm.trans hcs)
    simp [EndsLine]
  · rw [hfront, expand_concat] at hcs
    obtain ⟨ds, _, rfl⟩ := map_eq_ok.1 hcs
    simp [EndsLine]

end Banner

/-! ## The line behind the banner -/

namespace Exporter

open Classes Text

variable {e : Exporter} {m : Model} {top : Nat} {output : String} {layer : Layer}

/-- The line that opens the container for an output file. -/
inductive Opens (output : String) : ContainerStyle → String → Prop
  | package {name : String} : Container.packageName output = .ok name →
      Opens output .package ("package " ++ name ++ ";")
  | header {guard : String} : Container.includeGuard output = .ok guard →
      Opens output .header ("`ifndef " ++ guard)

theorem Opens.newline_not_mem {style : ContainerStyle} {line : String} :
    Opens output style line → '\n' ∉ line.toList := by
  intro h
  cases h with
  | @package name hname =>
    have hline : '\n' ∉ name.toList := by
      unfold Container.packageName at hname
      split at hname
      · obtain rfl := Except.ok.inj hname
        simp [newline_not_mem_wordChars]
      · cases hname
    simp [hline]
  | @header guard hguard =>
    have hline : '\n' ∉ guard.toList := by
      unfold Container.includeGuard at hguard
      split at hguard
      · obtain rfl := Except.ok.inj hguard
        exact newline_not_mem_upper (by simp [newline_not_mem_wordChars])
      · cases hguard
    simp [hline]

theorem exists_opening {style : ContainerStyle} {container : Container} :
    Container.ofPath style output = .ok container →
      ∃ line rest, Opens output style line ∧ container.opening = line :: rest := by
  intro h
  cases style with
  | package =>
    obtain ⟨name, hname, rfl⟩ := map_eq_ok.1 h
    exact ⟨_, _, .package hname, rfl⟩
  | header =>
    obtain ⟨guard, hguard, rfl⟩ := map_eq_ok.1 h
    exact ⟨_, _, .header hguard, rfl⟩

theorem wrapped_of_render :
    (e.render m top output).outcome = .ok layer → e.fillBanner m top output = .ok layer.banner ∧
      Container.ofPath e.options.containerStyle output = .ok layer.container := by
  intro hok
  rw [outcome_render] at hok
  obtain ⟨_, _, hok⟩ := bind_eq_ok.1 hok
  obtain ⟨banner, hbanner, hok⟩ := bind_eq_ok.1 hok
  obtain ⟨container, hcontainer, hok⟩ := bind_eq_ok.1 hok
  obtain ⟨out, _, hok⟩ := bind_eq_ok.1 hok
  obtain rfl := Except.ok.inj hok
  exact ⟨hbanner, hcontainer⟩

theorem endsLine_of_fillBanner {banner : String} :
    e.fillBanner m top output = .ok banner → EndsLine e.banner → EndsLine banner := by
  intro h
  unfold fillBanner at h
  split at h
  · exact Banner.endsLine_fill h
  · cases h

/-- **The opening line stands alone exactly if the banner ends its last line.**  A rendered text is
the banner with its variables filled in, and the lines of the code behind it.  The line that opens
the container is the one behind the line feeds of the banner if and only if the banner is empty or
ends in a line feed; and then all of the code has lines of its own.  It is enough that the template
is empty or ends in a line feed. -/
theorem opening_line_stands_alone (hok : (e.render m top output).outcome = .ok layer) :
    e.fillBanner m top output = .ok layer.banner ∧
    ∃ line rest, Opens output e.options.containerStyle line ∧ layer.codeLines = line :: rest ∧
      ((split '\n' layer.text)[layer.banner.toList.count '\n']? = some line ↔
        EndsLine layer.banner) ∧
      (EndsLine layer.banner → split '\n' layer.text =
        (split '\n' layer.banner).dropLast ++ (line :: rest.flatMap (split '\n') ++ [""])) ∧
      (EndsLine e.banner → EndsLine layer.banner) := by
  obtain ⟨hbanner, hcontainer⟩ := wrapped_of_render hok
  obtain ⟨line, more, hopens, hopening⟩ := exists_opening hcontainer
  obtain ⟨front, last, hends, hlength, hsplit⟩ := exists_split_append layer.banner
  obtain ⟨rest, hcode⟩ : ∃ rest, layer.codeLines = line :: rest := by
    rw [Layer.codeLines, hopening]
    exact ⟨_, rfl⟩
  -- The opening line goes on where the banner stops, be that inside a line or behind the last one.
  have htext : split '\n' layer.text =
      front ++ (last ++ line) :: (rest.flatMap (split '\n') ++ [""]) := by
    rw [Layer.text, hcode, split_append_join, hsplit line hopens.newline_not_mem]
    simp
  have hfront : split '\n' layer.banner = front ++ [last] := by
    have hempty := hsplit "" (by simp)
    simpa using hempty
  refine ⟨hbanner, line, rest, hopens, hcode, ?_, ?_, endsLine_of_fillBanner hbanner⟩
  · rw [htext, ← hlength, List.getElem?_append_right (Nat.le_refl _), Nat.sub_self,
      List.getElem?_cons_zero, Option.some.injEq, ← hends]
    constructor
    · intro hline
      have hlist : last.toList ++ line.toList = line.toList := by
        simpa using congrArg String.toList hline
      exact String.toList_eq_nil_iff.1 (List.append_left_eq_self.1 hlist)
    · rintro rfl
      simp
  · intro hlast
    obtain rfl := hends.2 hlast
    simp [htext, hfront]

/-! ### A comment with and without a line feed -/

/-- A design with an address map that holds nothing. -/
def bareMap : String :=
  "<model><addrmap name=\"soc\"/></model>"

/-- A comment that does not end its line. -/
def openComment : String :=
  "// Register model of \x7b\x7b top_name \x7d\x7d"

/-- An export below this banner. -/
def below (banner : String) : Exporter :=
  ⟨{}, banner⟩

theorem packageName_socPkg : Container.packageName "soc_pkg.sv" = .ok "soc_pkg" := by
  decide

/-- With a line feed behind the comment the package has a line of its own. -/
theorem opening_line_stands_alone_bareMap :
    ∃ m layer, Description.read bareMap = .ok m ∧
      ((below (openComment ++ "\n")).render m 0 "soc_pkg.sv").outcome = .ok layer ∧
      (split '\n' layer.text)[layer.banner.toList.count '\n']? = some "package soc_pkg;" := by
  have hrendered : ((below (openComment ++ "\n")).withLayer (Description.read bareMap) 0
      "soc_pkg.sv").isOk = true := by decide +kernel
  obtain ⟨⟨m, layer⟩, hok⟩ := isOk_iff.1 hrendered
  obtain ⟨hread, hrender⟩ := withLayer_eq_ok.1 hok
  obtain ⟨_, line, rest, hopens, _, hiff, _, hends⟩ := opening_line_stands_alone hrender
  have hline : line = "package soc_pkg;" := by
    cases hopens with
    | package hname =>
      obtain rfl := Except.ok.inj (hname.symm.trans packageName_socPkg)
      decide
  have hclosed : EndsLine (openComment ++ "\n") := endsLine_append _ (by decide) (by decide)
  exact ⟨m, layer, hread, hrender, hline ▸ hiff.2 (hends hclosed)⟩

theorem layer_below_openComment :
    (fun r : Model × Layer => (r.2.banner, r.2.codeLines.head?,
      decide (∀ line ∈ r.2.codeLines.tail, line ≠ "package soc_pkg;" ∧ '\n' ∉ line.toList))) <$>
      (below openComment).withLayer (Description.read bareMap) 0 "soc_pkg.sv" =
        .ok ("// Register model of soc", some "package soc_pkg;", true) := by
  decide +kernel

/-- **An opening line can be swallowed**: behind a comment that does not end its line the package is
part of the comment. -/
theorem opening_line_can_be_swallowed :
    ¬∀ (e : Exporter) (text : String) (m : Model) (top : Nat) (output line : String)
        (layer : Layer),
      Description.read text = .ok m → (e.render m top output).outcome = .ok layer →
      Opens output e.options.containerStyle line → line ∈ split '\n' layer.text := by
  intro hall
  obtain ⟨⟨m, layer⟩, hok, hfacts⟩ := map_eq_ok.1 layer_below_openComment
  obtain ⟨hread, hrender⟩ := withLayer_eq_ok.1 hok
  obtain ⟨hbanner, hhead, hrest⟩ := by simpa only [Prod.mk.injEq] using hfacts
  obtain ⟨rest, hcode⟩ := List.head?_eq_some_iff.1 hhead
  rw [hcode, List.tail_cons, decide_eq_true_eq] at hrest
  have hline := hall (below openComment) bareMap m 0 "soc_pkg.sv" _ layer hread hrender
    (.package packageName_socPkg)
  rw [Layer.text, hbanner, hcode, split_append_join, split_of_not_mem (by decide)] at hline
  simp only [List.mem_append, List.mem_singleton, List.mem_flatMap] at hline
  rcases hline with hfirst | ⟨other, hother, hmem⟩ | hlast
  · exact absurd hfirst (by decide)
  · rw [split_of_not_mem (hrest other hother).2, List.mem_singleton] at hmem
    exact (hrest other hother).1 hmem.symm
  · exact absurd hlast (by decide)

end Exporter

end RegLayer
