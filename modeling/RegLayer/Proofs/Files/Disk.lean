/-
# `RegLayer.Proofs.Files.Disk` — what the operations of a disk leave alone

Of the operations of a disk two change it.  Making folders adds folders and touches nothing else
(`onlyFolders_of_makeFolders`), and writing puts one file at the place its path leads to, or
leaves the disk alone where that is the null device (`wrote_of_write`).

`Disk.Wrote` is what a caller needs of this: the path leads to the text, unless the null device
stands there, and every other file is as it was.  It goes through folders that are made before
(`Wrote.after_folders`), since a path leads to the same place on a disk with more folders;
following it asks for folders only (`locate_of_folders`).
-/
import RegLayer.Files.Disk
import RegLayer.Proofs.Outcome

namespace RegLayer.Disk

variable {d d' d'' : Disk} {place other : List String} {item : Item} {path text : String}

/-! ## Items and files -/

/-- The content of the file at a place, if there is a file. -/
def file? (d : Disk) (place : List String) : Option ByteArray :=
  match d.item? place with
  | some (.file content) => some content
  | _ => none

theorem file?_congr (h : d'.item? place = d.item? place) : d'.file? place = d.file? place := by
  unfold file?
  rw [h]

theorem lookup_filter_ne (hne : other ≠ place) (items : List (List String × Item)) :
    (items.filter (·.1 != place)).lookup other = items.lookup other := by
  induction items with
  | nil => rfl
  | cons entry items ih =>
    obtain ⟨key, item⟩ := entry
    by_cases hkey : key = place
    · subst hkey
      have hother : (other == key) = false := beq_false_of_ne hne
      rw [List.filter_cons_of_neg (by simp), ih, List.lookup_cons, hother]
    · rw [List.filter_cons_of_pos (by simpa using hkey), List.lookup_cons, List.lookup_cons, ih]

theorem item?_put_self (hplace : place ≠ []) : (d.put place item).item? place = some item := by
  cases place with
  | nil => exact absurd rfl hplace
  | cons part parts => exact List.lookup_cons_self

theorem item?_put_of_ne (hne : other ≠ place) :
    (d.put place item).item? other = d.item? other := by
  cases other with
  | nil => rfl
  | cons part parts =>
    have hother : (part :: parts == place) = false := beq_false_of_ne hne
    show List.lookup (part :: parts) ((place, item) :: d.items.filter (·.1 != place)) = _
    rw [List.lookup_cons, hother]
    exact lookup_filter_ne hne d.items

/-! ## Following paths -/

/-- **A path leads to the same place** where all folders are that were there, and the same home. -/
theorem locate_of_folders (hhome : d'.home = d.home)
    (hfolders : ∀ p, d.item? p = some .folder → d'.item? p = some .folder)
    (h : d.locate path = .ok place) : d'.locate path = .ok place := by
  -- Following one part asks for a folder only, and all folders are still there.
  have hfollow : ∀ p part q, d.follow p part = .ok q → d'.follow p part = .ok q := by
    intro p part q hq
    unfold follow at hq ⊢
    split at hq
    · next hempty => rw [if_pos hempty, hq]
    · next hempty =>
      rw [if_neg hempty]
      cases hitem : d.item? p with
      | none => rw [hitem] at hq; cases hq
      | some item =>
        rw [hitem] at hq
        cases item with
        | file _ | null => cases hq
        | folder => rw [hfolders p hitem]; exact hq
  have hfold : ∀ (parts : List String) (start : List String),
      parts.foldlM d.follow start = .ok place → parts.foldlM d'.follow start = .ok place := by
    intro parts
    induction parts with
    | nil => exact fun start hstart => hstart
    | cons part parts ih =>
      intro start hstart
      rw [List.foldlM_cons] at hstart ⊢
      obtain ⟨next, hnext, hrest⟩ := bind_eq_ok.1 hstart
      exact bind_eq_ok.2 ⟨next, hfollow start part next hnext, ih next hrest⟩
  unfold locate followFrom at h ⊢
  rw [hhome]
  split at h
  · cases h
  · next hpath =>
    rw [if_neg hpath]
    split at h
    · cases h
    · next hlong =>
      rw [if_neg hlong]
      exact hfold _ _ h

/-! ## Making folders -/

/-- The second disk is the first one, perhaps with more folders. -/
structure OnlyFolders (d d' : Disk) : Prop where
  home : d'.home = d.home
  items : ∀ place, d'.item? place = d.item? place ∨
    d.item? place = none ∧ d'.item? place = some .folder

namespace OnlyFolders

theorem refl (d : Disk) : OnlyFolders d d :=
  ⟨rfl, fun _ => .inl rfl⟩

theorem trans (h : OnlyFolders d d') (h' : OnlyFolders d' d'') : OnlyFolders d d'' := by
  refine ⟨h'.home.trans h.home, fun place => ?_⟩
  rcases h'.items place with hsame' | ⟨hnone', hnew'⟩
  · rw [hsame']
    exact h.items place
  · rcases h.items place with hsame | ⟨_, hnew⟩
    · exact .inr ⟨hsame.symm.trans hnone', hnew'⟩
    · rw [hnew] at hnone'
      cases hnone'

theorem file? (h : OnlyFolders d d') (place : List String) :
    d'.file? place = d.file? place := by
  rcases h.items place with hsame | ⟨hnone, hnew⟩
  · exact file?_congr hsame
  · unfold Disk.file?
    rw [hnone, hnew]

end OnlyFolders

theorem onlyFolders_of_makeFolder (h : d.makeFolder path = .ok d') : OnlyFolders d d' := by
  unfold makeFolder at h
  obtain ⟨place, _, h⟩ := bind_eq_ok.1 h
  cases hitem : d.item? place with
  | some item => rw [hitem] at h; cases h
  | none =>
    rw [hitem] at h
    obtain rfl := pure_eq_ok.1 h
    refine ⟨rfl, fun other => ?_⟩
    by_cases hother : other = place
    · subst hother
      have hplace : other ≠ [] := by
        rintro rfl
        cases hitem
      exact .inr ⟨hitem, item?_put_self hplace⟩
    · exact .inl (item?_put_of_ne hother)

theorem onlyFolders_of_orPresent {answer : Except FileFault Disk}
    (hanswer : ∀ d', answer = .ok d' → OnlyFolders d d')
    (h : d.orPresent path answer = .ok d') : OnlyFolders d d' := by
  cases answer with
  | ok made =>
    obtain rfl := Except.ok.inj h
    exact hanswer made rfl
  | error e =>
    simp only [orPresent] at h
    split at h
    · obtain rfl := Except.ok.inj h
      exact OnlyFolders.refl d
    · cases h

/-- **Making folders touches nothing but folders**, and makes them where nothing was. -/
theorem onlyFolders_of_makeFolders {paths : List String} (h : d.makeFolders paths = .ok d') :
    OnlyFolders d d' := by
  induction paths generalizing d' with
  | nil => cases h
  | cons path above ih =>
    unfold makeFolders at h
    split at h
    · obtain rfl := Except.ok.inj h
      exact OnlyFolders.refl d
    · split at h
      · -- The folder above is missing: it is made first, and then this one is tried again.
        obtain ⟨d₁, habove, h⟩ := bind_eq_ok.1 h
        exact (ih habove).trans
          (onlyFolders_of_orPresent (fun _ hmade => onlyFolders_of_makeFolder hmade) h)
      · exact onlyFolders_of_orPresent (fun _ hmade => onlyFolders_of_makeFolder hmade) h

/-! ## Writing -/

/-- A place where a text is kept that is written there, unlike at the null device. -/
def KeepsAt (d : Disk) (place : List String) : Prop :=
  d.item? place ≠ some .null

theorem write_eq_ok (h : d.write path text = .ok d') :
    ∃ place, wantsFolder path = false ∧ d.locate path = .ok place ∧
      d.item? place ≠ some .folder ∧
      (¬d.KeepsAt place ∧ d' = d ∨ d.KeepsAt place ∧ d' = d.put place (.file text.toUTF8)) := by
  unfold write at h
  cases hwants : wantsFolder path with
  | true =>
    rw [hwants, if_pos rfl] at h
    obtain ⟨_, _, h⟩ := bind_eq_ok.1 h
    cases h
  | false =>
    rw [hwants, if_neg Bool.false_ne_true] at h
    obtain ⟨place, hplace, h⟩ := bind_eq_ok.1 h
    refine ⟨place, rfl, hplace, ?_⟩
    unfold KeepsAt
    cases hitem : d.item? place with
    | none =>
      rw [hitem] at h
      exact ⟨nofun, .inr ⟨nofun, (pure_eq_ok.1 h).symm⟩⟩
    | some item =>
      rw [hitem] at h
      cases item with
      | folder => cases h
      | file content => exact ⟨nofun, .inr ⟨nofun, (pure_eq_ok.1 h).symm⟩⟩
      | null => exact ⟨nofun, .inl ⟨not_not.2 rfl, (pure_eq_ok.1 h).symm⟩⟩

/-- The text is what the file at the path holds, and every other file is as it was.  At the null
device there is no file, and all are as they were. -/
def Wrote (d : Disk) (path text : String) (d' : Disk) : Prop :=
  ∃ place, d'.locate path = .ok place ∧
    (d.KeepsAt place → d'.read path = .ok text ∧ d'.file? place = some text.toUTF8) ∧
    (¬d.KeepsAt place → d'.file? place = d.file? place) ∧
    ∀ other, other ≠ place → d'.file? other = d.file? other

theorem fromUTF8?_toUTF8 (s : String) : String.fromUTF8? s.toUTF8 = some s := by
  unfold String.fromUTF8?
  rw [String.toUTF8_eq_toByteArray, dif_pos s.isValidUTF8]
  rfl

theorem read_of_file {content : ByteArray} (hplain : wantsFolder path = false)
    (hlocate : d.locate path = .ok place) (hitem : d.item? place = some (.file content))
    (htext : String.fromUTF8? content = some text) : d.read path = .ok text := by
  refine bind_eq_ok.2 ⟨place, hlocate, ?_⟩
  simp only [hitem, hplain, htext]
  rfl

/-- **Writing puts the text at its place**, and leaves every other file as it was. -/
theorem wrote_of_write (h : d.write path text = .ok d') : Wrote d path text d' := by
  obtain ⟨place, hplain, hlocate, hitem, ⟨hnull, rfl⟩ | ⟨hkeeps, rfl⟩⟩ := write_eq_ok h
  · exact ⟨place, hlocate, fun hkeeps => absurd hkeeps hnull, fun _ => rfl, fun _ _ => rfl⟩
  · have hplace : place ≠ [] := by
      rintro rfl
      exact hitem rfl
    have hself : (d.put place (.file text.toUTF8)).item? place = some (.file text.toUTF8) :=
      item?_put_self hplace
    -- The new file does not stand where a folder was, so the path still leads to its place.
    have hlocate' : (d.put place (.file text.toUTF8)).locate path = .ok place := by
      refine locate_of_folders (d := d) rfl (fun p hp => ?_) hlocate
      have hne : p ≠ place := by
        rintro rfl
        exact hitem hp
      rw [item?_put_of_ne hne, hp]
    refine ⟨place, hlocate', fun _ => ⟨?_, ?_⟩, fun hnull => absurd hkeeps hnull, ?_⟩
    · exact read_of_file hplain hlocate' hself (fromUTF8?_toUTF8 text)
    · unfold file?
      rw [hself]
    · exact fun other hother => file?_congr (item?_put_of_ne hother)

/-- Folders that were made before do not matter to what was written. -/
theorem Wrote.after_folders (hfolders : OnlyFolders d d') (h : Wrote d' path text d'') :
    Wrote d path text d'' := by
  obtain ⟨place, hlocate, hcontent, hnull, hothers⟩ := h
  have hkeeps : d'.KeepsAt place ↔ d.KeepsAt place := by
    unfold KeepsAt
    rcases hfolders.items place with hsame | ⟨hnone, hnew⟩
    · rw [hsame]
    · simp [hnone, hnew]
  refine ⟨place, hlocate, fun h => hcontent (hkeeps.2 h), fun h => ?_, fun other hother => ?_⟩
  · rw [hnull (mt hkeeps.1 h), hfolders.file?]
  · rw [hothers other hother, hfolders.file?]

end RegLayer.Disk
