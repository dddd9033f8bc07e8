/-
# `RegLayer.Proofs.Text.Lines` — texts line by line

A generated text is a list of lines, each followed by a line feed.  Some of these hold free texts,
which may hold line feeds of their own, so the lines that a reader sees are the pieces between all
line feeds, and they come piece by piece from what was put together (`split_append_join`).

The code of a text is what is left of its lines when the comments are deleted
(`withoutComments`).  A comment here is a line that begins with two slashes; one that stands
behind code or white space does not count.
-/
import RegLayer.Text.Blank
import RegLayer.Text.Pieces

namespace RegLayer.Text

/-! ## Cutting -/

theorem cut_append (sep : Char) (cs ds : List Char) :
    cut sep (cs ++ sep :: ds) = cut sep cs ++ cut sep ds := by
  induction cs with
  | nil => simp [cut]
  | cons c cs ih =>
    by_cases hc : c = sep
    · simp [cut, hc, ih]
    · obtain ⟨p, ps, hcut⟩ := List.exists_cons_of_ne_nil (cut_ne_nil sep cs)
      rw [hcut, List.cons_append] at ih
      simp [cut, hc, hcut, ih]

theorem not_mem_of_mem_cut {sep : Char} {cs p : List Char} (hp : p ∈ cut sep cs) : sep ∉ p := by
  induction cs generalizing p with
  | nil =>
    obtain rfl := List.mem_singleton.1 hp
    exact List.not_mem_nil
  | cons c cs ih =>
    obtain ⟨q, qs, hcut⟩ := List.exists_cons_of_ne_nil (cut_ne_nil sep cs)
    rw [hcut] at ih
    by_cases hc : c = sep
    · rw [cut, if_pos hc, hcut] at hp
      rcases List.mem_cons.1 hp with rfl | hp
      · exact List.not_mem_nil
      · exact ih hp
    · rw [cut, if_neg hc, hcut] at hp
      rcases List.mem_cons.1 hp with rfl | hp
      · rw [List.mem_cons]
        rintro (hsep | hsep)
        · exact hc hsep.symm
        · exact ih List.mem_cons_self hsep
      · exact ih (List.mem_cons_of_mem q hp)

theorem cut_of_not_mem {sep : Char} {cs : List Char} (h : sep ∉ cs) : cut sep cs = [cs] := by
  induction cs with
  | nil => rfl
  | cons c cs ih =>
    rw [List.mem_cons, not_or] at h
    rw [cut, if_neg (Ne.symm h.1), ih h.2]

theorem split_of_not_mem {sep : Char} {s : String} (h : sep ∉ s.toList) : split sep s = [s] := by
  unfold split
  rw [cut_of_not_mem h, List.map_singleton, String.ofList_toList]

theorem split_append_newline (s t : String) :
    split '\n' (s ++ ("\n" ++ t)) = split '\n' s ++ split '\n' t := by
  unfold split
  rw [String.toList_append, String.toList_append]
  exact (congrArg _ (cut_append '\n' s.toList t.toList)).trans (List.map_append ..)

/-! ## Lines with free texts in them -/

theorem split_join (ls : List String) :
    split '\n' (String.join (ls.map (· ++ "\n"))) = ls.flatMap (split '\n') ++ [""] := by
  induction ls with
  | nil => rfl
  | cons l ls ih =>
    rw [List.map_cons, String.join_cons, String.append_assoc, split_append_newline, ih,
      List.flatMap_cons, List.append_assoc]

/-- The first line goes on from where the text before it stopped. -/
theorem split_append_join (s l : String) (ls : List String) :
    split '\n' (s ++ String.join ((l :: ls).map (· ++ "\n"))) =
      split '\n' (s ++ l) ++ (ls.flatMap (split '\n') ++ [""]) := by
  rw [List.map_cons, String.join_cons, String.append_assoc, ← String.append_assoc,
    split_append_newline, split_join]

theorem not_mem_of_mem_lines {s line : String} (h : line ∈ lines s) : '\n' ∉ line.toList := by
  obtain ⟨p, hp, rfl⟩ := List.mem_map.1 h
  rw [String.toList_ofList]
  have hcut : p ∈ cut '\n' s.toList := by
    by_cases hlast : (cut '\n' s.toList).getLast? = some []
    · rw [if_pos hlast] at hp
      exact List.dropLast_subset _ hp
    · rw [if_neg hlast] at hp
      exact hp
  exact not_mem_of_mem_cut hcut

theorem mem_of_mem_trim {s : String} {c : Char} (h : c ∈ (trim s).toList) : c ∈ s.toList := by
  unfold trim trimChars at h
  rw [String.toList_ofList, List.mem_reverse] at h
  have hback := (List.dropWhile_suffix _).subset h
  exact (List.dropWhile_suffix _).subset (List.mem_reverse.1 hback)

/-! ## Code and comments -/

/-- Whether a line begins with two slashes. -/
def isComment (line : String) : Bool :=
  "//".toList.isPrefixOf line.toList

/-- The lines of a text that do not begin with two slashes. -/
def keptLines (s : String) : List String :=
  (split '\n' s).filter fun line => !isComment line

/-- The text without the lines that begin with two slashes. -/
def withoutComments (s : String) : String :=
  join "\n" (keptLines s)

theorem keptLines_comment {s : String} (h : '\n' ∉ s.toList) : keptLines ("// " ++ s) = [] := by
  have hline : '\n' ∉ ("// " ++ s).toList := by
    rw [String.toList_append, List.mem_append, not_or]
    exact ⟨by decide, h⟩
  have hcomment : isComment ("// " ++ s) = true := by
    unfold isComment
    rw [String.toList_append]
    rfl
  unfold keptLines
  rw [split_of_not_mem hline, List.filter_cons_of_neg (by simp [hcomment])]
  rfl

theorem keptLines_append_join (s l : String) (ls : List String) :
    keptLines (s ++ String.join ((l :: ls).map (· ++ "\n"))) =
      keptLines (s ++ l) ++ (ls.flatMap keptLines ++ [""]) := by
  unfold keptLines
  rw [split_append_join, List.filter_append, List.filter_append, List.filter_flatMap]
  rfl

end RegLayer.Text
