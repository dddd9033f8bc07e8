/-
# `RegLayer.Proofs.ClassRegister` — the first query for a name decides

A register is asked for one name after the other, and some of the queries are refused.  What it
holds for a name after any number of queries is the declaration of the first query for that name
(`holder?_after`): a later query, granted or refused, does not put its own declaration there
(`query_cases` says all that a query can do).

Every answer is therefore a matter of the queries before it, which is how `answers_by_first_query`
puts it, for every series of queries on an empty register: who is granted a name, who shares it,
who is refused, that a refused query changes no later answer, and how many names are taken.

A query returns its answer and the register as it leaves it, and `answer` and `next` are the two
halves.  That a refusal leaves the register alone is thus read off the query (`next_of_error`),
not arranged by whoever asks on.
-/
import Mathlib.Data.Finset.Insert
import Mathlib.Data.Finset.Card
import RegLayer.ClassRegister

namespace RegLayer.ClassRegister

/-! ## Queries -/

/-- A class name, and the declaration of the component that asks for it. -/
abbrev Query := String × Option DeclId

/-- What a query is told: whether the class still has to be written, or that it cannot have the
name. -/
def answer (r : ClassRegister) (q : Query) : Except Failure Bool :=
  (r.query q.1 q.2).1

/-- The register as a query leaves it. -/
def next (r : ClassRegister) (q : Query) : ClassRegister :=
  (r.query q.1 q.2).2

/-- The register after a series of queries. -/
def after (r : ClassRegister) (qs : List Query) : ClassRegister :=
  qs.foldl next r

/-- What the queries of a series are told, one after the other. -/
def answers (r : ClassRegister) : List Query → List (Except Failure Bool)
  | [] => []
  | q :: qs => r.answer q :: (r.next q).answers qs

/-! ## One query -/

/-- The declaration that holds a name is known, and it is the one that asks. -/
def Shares (holder decl : Option DeclId) : Prop :=
  ∃ d, holder = some d ∧ decl = some d

theorem shares_iff {holder decl : Option DeclId} :
    Shares holder decl ↔ (holder.isSome && holder == decl) = true := by
  cases holder with
  | none => simp [Shares]
  | some d =>
    constructor
    · rintro ⟨_, ⟨⟩, rfl⟩
      simp
    · intro h
      have heq : some d = decl := by simpa using h
      exact ⟨d, rfl, heq.symm⟩

/-- **What a query does.**  A free name is taken.  A name that is held is granted again to the known
declaration that holds it and refused to everybody else, and nothing changes. -/
theorem query_cases (r : ClassRegister) (q : Query) :
    (r.holder? q.1 = none ∧ r.next q = ⟨q :: r.claims⟩ ∧ r.answer q = .ok true) ∨
    ∃ holder, r.holder? q.1 = some holder ∧ r.next q = r ∧
      (Shares holder q.2 ∧ r.answer q = .ok false ∨
        ¬Shares holder q.2 ∧ r.answer q = .error (.fault (.classNameTaken q.1))) := by
  unfold answer next
  cases hheld : r.holder? q.1 with
  | none =>
    rw [query_of_free q.2 hheld]
    exact Or.inl ⟨rfl, rfl, rfl⟩
  | some holder =>
    refine Or.inr ⟨holder, rfl, ?_⟩
    by_cases hshares : Shares holder q.2
    · rw [query_of_shared hheld (shares_iff.1 hshares)]
      exact ⟨rfl, Or.inl ⟨hshares, rfl⟩⟩
    · have hother := (Bool.not_eq_true _).mp fun h => hshares (shares_iff.2 h)
      rw [query_of_taken hheld hother]
      exact ⟨rfl, Or.inr ⟨hshares, rfl⟩⟩

theorem holder?_next (r : ClassRegister) (q : Query) (name : String) :
    (r.next q).holder? name = (r.holder? name).or (if q.1 = name then some q.2 else none) := by
  obtain ⟨asked, decl⟩ := q
  by_cases hname : asked = name
  · subst hname
    rcases query_cases r (asked, decl) with ⟨hfree, hnext, _⟩ | ⟨holder, hheld, hnext, _⟩
    · rw [hnext, hfree, if_pos rfl]
      exact List.lookup_cons_self
    · rw [hnext, hheld]
      rfl
  · have hother : (name == asked) = false := beq_false_of_ne (Ne.symm hname)
    rw [if_neg hname, Option.or_none]
    rcases query_cases r (asked, decl) with ⟨_, hnext, _⟩ | ⟨_, _, hnext, _⟩
    · rw [hnext, holder?, List.lookup_cons, hother]
      rfl
    · rw [hnext]

theorem answer_eq_true_iff {r : ClassRegister} {q : Query} :
    r.answer q = .ok true ↔ r.holder? q.1 = none := by
  rcases query_cases r q with ⟨hfree, _, hanswer⟩ |
    ⟨_, hheld, _, ⟨_, hanswer⟩ | ⟨_, hanswer⟩⟩
  · simp [hfree, hanswer]
  · simp [hheld, hanswer]
  · simp [hheld, hanswer]

theorem answer_eq_false_iff {r : ClassRegister} {q : Query} :
    r.answer q = .ok false ↔ ∃ d, r.holder? q.1 = some (some d) ∧ q.2 = some d := by
  rcases query_cases r q with ⟨hfree, _, hanswer⟩ |
    ⟨holder, hheld, _, ⟨hshares, hanswer⟩ | ⟨hother, hanswer⟩⟩
  · simp [hfree, hanswer]
  · obtain ⟨d, rfl, hd⟩ := hshares
    exact iff_of_true hanswer ⟨d, hheld, hd⟩
  · rw [hanswer]
    refine iff_of_false (by simp) fun ⟨d, hd, hasks⟩ => hother ⟨d, ?_, hasks⟩
    exact Option.some.inj (hheld.symm.trans hd)

theorem answer_eq_error_iff {r : ClassRegister} {q : Query} {e : Failure} :
    r.answer q = .error e ↔ e = .fault (.classNameTaken q.1) ∧
      ∃ holder, r.holder? q.1 = some holder ∧ ¬Shares holder q.2 := by
  rcases query_cases r q with ⟨hfree, _, hanswer⟩ |
    ⟨holder, hheld, _, ⟨hshares, hanswer⟩ | ⟨hother, hanswer⟩⟩
  · simp [hfree, hanswer]
  · simp [hheld, hanswer, hshares]
  · simp [hheld, hanswer, hother, eq_comm]

/-- A query that is refused changes nothing. -/
theorem next_of_error {r : ClassRegister} {q : Query} {e : Failure} :
    r.answer q = .error e → r.next q = r := by
  intro h
  obtain ⟨_, holder, hheld, _⟩ := answer_eq_error_iff.1 h
  rcases query_cases r q with ⟨hfree, _, _⟩ | ⟨_, _, hnext, _⟩
  · simp [hfree] at hheld
  · exact hnext

theorem size_next (r : ClassRegister) (q : Query) :
    (r.next q).size = r.size + if r.answer q = .ok true then 1 else 0 := by
  rcases query_cases r q with ⟨_, hnext, hanswer⟩ | ⟨_, _, hnext, ⟨_, hanswer⟩ | ⟨_, hanswer⟩⟩
  · rw [hnext, hanswer]
    rfl
  · rw [hnext, hanswer]
    rfl
  · rw [hnext, hanswer]
    rfl

/-! ## A series of queries -/

theorem after_concat (r : ClassRegister) (qs : List Query) (q : Query) :
    r.after (qs ++ [q]) = (r.after qs).next q := by
  simp [after]

theorem answers_append (r : ClassRegister) (qs qs' : List Query) :
    r.answers (qs ++ qs') = r.answers qs ++ (r.after qs).answers qs' := by
  induction qs generalizing r with
  | nil => rfl
  | cons q qs ih => exact congrArg (r.answer q :: ·) (ih (r.next q))

theorem size_after (r : ClassRegister) (qs : List Query) :
    (r.after qs).size = r.size + (r.answers qs).count (.ok true) := by
  induction qs generalizing r with
  | nil => rfl
  | cons q qs ih =>
    have hstep : r.after (q :: qs) = (r.next q).after qs := rfl
    rw [hstep, ih, size_next, answers, List.count_cons]
    simp only [beq_iff_eq]
    omega

/-- **The first query for a name stays.** -/
theorem holder?_after (qs : List Query) (name : String) :
    (empty.after qs).holder? name = (qs.find? (·.1 == name)).map Prod.snd := by
  induction qs using List.reverseRecOn with
  | nil => rfl
  | append_singleton qs q ih =>
    rw [after_concat, holder?_next, ih, List.find?_append, Option.map_or]
    congr 1
    by_cases hname : q.1 = name <;> simp [hname]

/-- The first query of the series for this name comes from this declaration. -/
def FirstFor (qs : List Query) (name : String) (decl : Option DeclId) : Prop :=
  ∃ before behind, qs = before ++ (name, decl) :: behind ∧ ∀ q ∈ before, q.1 ≠ name

theorem firstFor_iff {qs : List Query} {name : String} {decl : Option DeclId} :
    FirstFor qs name decl ↔ (empty.after qs).holder? name = some decl := by
  rw [holder?_after, Option.map_eq_some_iff]
  constructor
  · rintro ⟨before, behind, rfl, hbefore⟩
    exact ⟨(name, decl), List.find?_eq_some_iff_append.2
      ⟨by simp, before, behind, rfl, by simpa using hbefore⟩, rfl⟩
  · rintro ⟨q, hq, rfl⟩
    obtain ⟨hname, before, behind, rfl, hbefore⟩ := List.find?_eq_some_iff_append.1 hq
    obtain rfl := eq_of_beq hname
    exact ⟨before, behind, rfl, by simpa using hbefore⟩

theorem free_iff {qs : List Query} {name : String} :
    (empty.after qs).holder? name = none ↔ ∀ q ∈ qs, q.1 ≠ name := by
  simp [holder?_after]

theorem size_after_eq_card (qs : List Query) :
    (empty.after qs).size = (qs.map Prod.fst).toFinset.card := by
  induction qs using List.reverseRecOn with
  | nil => rfl
  | append_singleton qs q ih =>
    have hnames : ((qs ++ [q]).map Prod.fst).toFinset =
        insert q.1 (qs.map Prod.fst).toFinset := by
      ext name
      simp
    have hnew : (empty.after qs).answer q = .ok true ↔ q.1 ∉ (qs.map Prod.fst).toFinset := by
      rw [answer_eq_true_iff, free_iff, List.mem_toFinset, List.mem_map]
      exact ⟨fun hfree ⟨p, hp, hname⟩ => hfree p hp hname,
        fun hnot p hp hname => hnot ⟨p, hp, hname⟩⟩
    rw [after_concat, size_next, ih, hnames]
    by_cases hasked : q.1 ∈ (qs.map Prod.fst).toFinset
    · rw [if_neg (hnew.not.2 (not_not.2 hasked)), Finset.insert_eq_of_mem hasked, Nat.add_zero]
    · rw [if_pos (hnew.2 hasked), Finset.card_insert_of_notMem hasked]

/-- **The first query for a name decides.**  In a series of queries on an empty register, a query is
told to write the class exactly if the name is asked for the first time.  It is told that the class
is there exactly if the first query for the name came from the same known declaration.  Otherwise it
is refused, and everything goes on as if it had not been made.  The register always has as many
names as were asked for, and as many as there were classes to write. -/
theorem answers_by_first_query (earlier later : List Query) (name : String)
    (decl : Option DeclId) :
    empty.answers (earlier ++ (name, decl) :: later) =
      empty.answers earlier ++ (empty.after earlier).answer (name, decl) ::
        (empty.after (earlier ++ [(name, decl)])).answers later ∧
    ((empty.after earlier).answer (name, decl) = .ok true ↔ ∀ q ∈ earlier, q.1 ≠ name) ∧
    ((empty.after earlier).answer (name, decl) = .ok false ↔
      ∃ d, FirstFor earlier name (some d) ∧ decl = some d) ∧
    (∀ e, (empty.after earlier).answer (name, decl) = .error e ↔
      e = .fault (.classNameTaken name) ∧
        ∃ first, FirstFor earlier name first ∧ ¬Shares first decl) ∧
    (∀ e, (empty.after earlier).answer (name, decl) = .error e →
      (∃ f, e = .fault f ∧ f.kind = .namespaceCollision) ∧
      empty.after (earlier ++ [(name, decl)]) = empty.after earlier ∧
      ∃ rest, empty.answers (earlier ++ later) = empty.answers earlier ++ rest ∧
        empty.answers (earlier ++ (name, decl) :: later) =
          empty.answers earlier ++ .error e :: rest) ∧
    (empty.after earlier).size = (earlier.map Prod.fst).toFinset.card ∧
    (empty.after earlier).size = (empty.answers earlier).count (.ok true) := by
  have hseries : empty.answers (earlier ++ (name, decl) :: later) =
      empty.answers earlier ++ (empty.after earlier).answer (name, decl) ::
        (empty.after (earlier ++ [(name, decl)])).answers later := by
    rw [answers_append, after_concat]
    rfl
  refine ⟨hseries, ?_, ?_, ?_, ?_, size_after_eq_card earlier, ?_⟩
  · rw [answer_eq_true_iff, free_iff]
  · simp only [answer_eq_false_iff, firstFor_iff]
  · simp only [answer_eq_error_iff, firstFor_iff, implies_true]
  · intro e he
    -- The register is as it was, so everything later is answered as if nothing had been asked.
    have hsame : empty.after (earlier ++ [(name, decl)]) = empty.after earlier := by
      rw [after_concat, next_of_error he]
    refine ⟨⟨_, (answer_eq_error_iff.1 he).1, rfl⟩, hsame, (empty.after earlier).answers later,
      answers_append _ _ _, ?_⟩
    rw [hseries, he, hsame]
  · rw [size_after, size_empty, Nat.zero_add]

/-- A query that was refused in between does not take the name away. -/
theorem answers_by_first_query_retry :
    (empty.after [("ctrl_t", some ⟨0⟩), ("ctrl_t", some ⟨1⟩), ("anon", none)]).answer
      ("ctrl_t", some ⟨0⟩) = .ok false :=
  (answers_by_first_query _ [] "ctrl_t" (some ⟨0⟩)).2.2.1.2
    ⟨⟨0⟩, ⟨[], _, rfl, by simp⟩, rfl⟩

end RegLayer.ClassRegister
