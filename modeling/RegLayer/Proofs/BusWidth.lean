/-
# `RegLayer.Proofs.BusWidth` — the table holds the maxima

The walk keeps a stack of running maxima, and the table is filled on the way out of each group.
The invariant of the walk is a statement about every subtree at once (`foldl_walk`): wherever the
walk stands when it enters a subtree, it comes out with the innermost maximum raised by the widest
access in the subtree, and with one more row for each group of the subtree, in the order in which
the groups are left.  It is proved by induction along the children; what a list of subtrees does
(`foldl_walks`) is what its members do, one after the other.

So the table is the groups of the traversal recorded in their order (`build_eq_recordAll`), and a
look-up finds the last group with the path (`width?_build`).  No model is excluded: the links need
not agree for this, since walk and traversal are orders of one tree.
-/
import RegLayer.BusWidth
import RegLayer.Proofs.Model.Region
import RegLayer.Proofs.Outcome

namespace RegLayer

/-! ## The widest of several accesses -/

theorem toNat_max (a b : UInt32) : (max a b).toNat = max a.toNat b.toNat := by
  show (if a ≤ b then b else a).toNat = _
  by_cases h : a ≤ b
  · rw [if_pos h, Nat.max_eq_right (UInt32.le_iff_toNat_le.1 h)]
  · have hle : b.toNat ≤ a.toNat := by
      have := mt UInt32.le_iff_toNat_le.2 h
      omega
    rw [if_neg h, Nat.max_eq_left hle]

theorem max_assoc32 (a b c : UInt32) : max (max a b) c = max a (max b c) := by
  apply UInt32.toNat_inj.1
  simp only [toNat_max]
  omega

theorem max_comm32 (a b : UInt32) : max a b = max b a := by
  apply UInt32.toNat_inj.1
  simp only [toNat_max]
  omega

theorem zero_max32 (a : UInt32) : max 0 a = a := by
  apply UInt32.toNat_inj.1
  rw [toNat_max]
  exact Nat.zero_max _

theorem max_zero32 (a : UInt32) : max a 0 = a := by
  apply UInt32.toNat_inj.1
  rw [toNat_max]
  exact Nat.max_zero _

/-- The width of one access to the component itself, zero where there is nothing to access. -/
def Kind.accessBits : Kind → UInt32
  | .reg _ accessWidth => accessWidth
  | .mem _ width _ => width
  | _ => 0

theorem Kind.accessBits_of_isGroup {kind : Kind} (hk : kind.isGroup = true) :
    kind.accessBits = 0 := by
  cases kind <;> first | rfl | cases hk

namespace Model

variable (m : Model)

/-- The widest access to one of these components. -/
def widestIn (l : List Nat) : UInt32 :=
  (l.map fun a => (m.kind a).accessBits).foldr max 0

/-- The widest access to a component or to anything below it. -/
def widest (h : Nat) : UInt32 :=
  m.widestIn (m.postorder h)

/-- The address maps and register files from a node downwards, in the order of a traversal. -/
def groups (h : Nat) : List Nat :=
  (m.postorder h).filter fun a => (m.kind a).isGroup

theorem widestIn_append (l₁ l₂ : List Nat) :
    m.widestIn (l₁ ++ l₂) = max (m.widestIn l₁) (m.widestIn l₂) := by
  induction l₁ with
  | nil => exact (zero_max32 _).symm
  | cons a l₁ ih =>
    show max _ (m.widestIn (l₁ ++ l₂)) = max (max _ _) _
    rw [ih, max_assoc32]
    rfl

theorem widestIn_singleton (a : Nat) : m.widestIn [a] = (m.kind a).accessBits :=
  max_zero32 _

theorem widest_eq (h : Nat) :
    m.widest h =
      max (m.kind h).accessBits (m.widestIn ((m.children h).flatMap m.postorder)) := by
  unfold widest
  rw [postorder_eq, widestIn_append, widestIn_singleton, max_comm32]

theorem groups_eq (h : Nat) :
    m.groups h =
      (m.children h).flatMap m.groups ++ if (m.kind h).isGroup = true then [h] else [] := by
  unfold groups
  rw [postorder_eq, List.filter_append, List.filter_flatMap, List.filter_singleton]
  cases (m.kind h).isGroup <;> rfl

end Model

namespace WidthTable

/-! ## Look-ups -/

theorem width?_record (t : WidthTable) (path : String) (width : UInt32) (p : String) :
    (t.record path width).width? p = if path = p then some width else t.width? p := by
  unfold width? record
  by_cases hp : path = p
  · subst hp
    rw [if_pos rfl]
    exact List.lookup_cons_self
  · rw [if_neg hp, List.lookup_cons, beq_false_of_ne (Ne.symm hp)]
    obtain ⟨rows⟩ := t
    induction rows with
    | nil => rfl
    | cons row rows ih =>
      obtain ⟨q, w⟩ := row
      by_cases hq : q = path
      · have hqp : (p == q) = false := beq_false_of_ne (by rw [hq]; exact Ne.symm hp)
        rw [List.filter_cons_of_neg (by simp [hq]), List.lookup_cons, hqp]
        exact ih
      · rw [List.filter_cons_of_pos (by simpa using hq), List.lookup_cons, List.lookup_cons]
        cases p == q
        · exact ih
        · rfl

/-- The table with a row for each of these groups, recorded one after the other. -/
def recordAll (m : Model) (t : WidthTable) (gs : List Nat) : WidthTable :=
  gs.foldl (fun t g => t.record (m.path g) (m.widest g)) t

theorem recordAll_append (m : Model) (t : WidthTable) (l₁ l₂ : List Nat) :
    recordAll m t (l₁ ++ l₂) = recordAll m (recordAll m t l₁) l₂ :=
  List.foldl_append

theorem width?_recordAll (m : Model) (t : WidthTable) (gs : List Nat) (p : String) :
    (recordAll m t gs).width? p =
      ((gs.reverse.find? fun g => m.path g == p).map m.widest).or (t.width? p) := by
  induction gs generalizing t with
  | nil => rfl
  | cons g gs ih =>
    show (recordAll m (t.record (m.path g) (m.widest g)) gs).width? p = _
    rw [ih, width?_record, List.reverse_cons, List.find?_append]
    cases gs.reverse.find? fun g => m.path g == p with
    | some last => rfl
    | none =>
      by_cases hp : m.path g = p
      · rw [if_pos hp, List.find?_singleton, if_pos (by simpa using hp)]
        rfl
      · rw [if_neg hp, List.find?_singleton, if_neg (by simpa using hp)]
        rfl

/-! ## The walk -/

theorem Progress.widen_widen (p : Progress) (a b : UInt32) :
    (p.widen a).widen b = p.widen (max a b) := by
  obtain ⟨running, table⟩ := p
  cases running with
  | nil => rfl
  | cons w ws =>
    show Progress.mk (max (max w a) b :: ws) table = ⟨max w (max a b) :: ws, table⟩
    rw [max_assoc32]

theorem Progress.widen_zero (p : Progress) : p.widen 0 = p := by
  obtain ⟨running, table⟩ := p
  cases running with
  | nil => rfl
  | cons w ws =>
    show Progress.mk (max w 0 :: ws) table = ⟨w :: ws, table⟩
    rw [max_zero32]

theorem Progress.table_widen (p : Progress) (a : UInt32) : (p.widen a).table = p.table := by
  obtain ⟨running, table⟩ := p
  cases running <;> rfl

theorem Progress.enter_of_not_isGroup {kind : Kind} (hk : kind.isGroup = false) (p : Progress) :
    p.enter kind = p.widen kind.accessBits := by
  cases kind with
  | addrmap endianness bridge => cases hk
  | regfile => cases hk
  | reg width accessWidth => rfl
  | mem entries width policy => rfl
  | field spec => exact p.widen_zero.symm
  | signal => exact p.widen_zero.symm

theorem Progress.enter_of_isGroup {kind : Kind} (hk : kind.isGroup = true) (p : Progress) :
    p.enter kind = ⟨0 :: p.running, p.table⟩ := by
  cases kind <;> first | rfl | cases hk

/-- Where the walk stands after something that holds accesses up to this width and these groups. -/
def Progress.past (m : Model) (p : Progress) (width : UInt32) (gs : List Nat) : Progress :=
  ⟨(p.widen width).running, recordAll m p.table gs⟩

theorem Progress.past_past (m : Model) (p : Progress) (a b : UInt32) (gs gs' : List Nat) :
    (p.past m a gs).past m b gs' = p.past m (max a b) (gs ++ gs') := by
  unfold past
  rw [recordAll_append, ← widen_widen]
  congr 1
  obtain ⟨running, table⟩ := p
  cases running <;> rfl

theorem Progress.leave_past {m : Model} (p : Progress) {h : Nat} {width : UInt32}
    (hw : m.widest h = width) (gs : List Nat) :
    ((⟨0 :: p.running, p.table⟩ : Progress).past m width gs).leave (m.path h) =
      p.past m width (gs ++ [h]) := by
  obtain ⟨running, table⟩ := p
  unfold past
  rw [recordAll_append]
  show Progress.widen ⟨running, (recordAll m table gs).record (m.path h) (max 0 width)⟩
    (max 0 width) = ⟨_, (recordAll m table gs).record (m.path h) (m.widest h)⟩
  rw [zero_max32, hw]
  cases running <;> rfl

/-- A walk around several subtrees, when the invariant holds around each of them. -/
theorem foldl_walks (m : Model) (cs : List Nat)
    (ih : ∀ c ∈ cs, ∀ p : Progress,
      (m.walk c).foldl (Progress.visit m) p = p.past m (m.widest c) (m.groups c))
    (p : Progress) :
    (cs.flatMap m.walk).foldl (Progress.visit m) p =
      p.past m (m.widestIn (cs.flatMap m.postorder)) (cs.flatMap m.groups) := by
  induction cs generalizing p with
  | nil => exact (congrArg (fun q : Progress => Progress.mk q.running p.table) p.widen_zero).symm
  | cons c cs ihcs =>
    have hcs := ihcs fun d hd => ih d (List.mem_cons_of_mem _ hd)
    rw [List.flatMap_cons, List.foldl_append, ih c List.mem_cons_self, hcs, Progress.past_past,
      List.flatMap_cons, List.flatMap_cons, Model.widestIn_append]
    rfl

/-- **The invariant of the walk**: a subtree raises the innermost maximum by its widest access, and
adds a row for each of its groups. -/
theorem foldl_walk (m : Model) (h : Nat) (p : Progress) :
    (m.walk h).foldl (Progress.visit m) p = p.past m (m.widest h) (m.groups h) := by
  induction h using m.induct_children generalizing p with
  | step h ih =>
    have hgroups := m.groups_eq h
    have hwidest := m.widest_eq h
    rw [Model.walk_eq, List.foldl_cons, List.foldl_append, foldl_walks m _ ih, List.foldl_cons,
      List.foldl_nil]
    cases hk : (m.kind h).isGroup with
    | false =>
      rw [hk, if_neg Bool.false_ne_true, List.append_nil] at hgroups
      have henter : p.visit m (.enter h) = p.widen (m.kind h).accessBits :=
        Progress.enter_of_not_isGroup hk p
      have hleave : ∀ q : Progress, q.visit m (.leave h) = q := fun q => if_neg (by simp [hk])
      rw [henter, hleave, hgroups, hwidest]
      unfold Progress.past
      rw [Progress.widen_widen, Progress.table_widen]
    | true =>
      rw [hk, if_pos rfl] at hgroups
      have henter : p.visit m (.enter h) = ⟨0 :: p.running, p.table⟩ :=
        Progress.enter_of_isGroup hk p
      have hleave : ∀ q : Progress, q.visit m (.leave h) = q.leave (m.path h) :=
        fun q => if_pos hk
      -- The new maximum starts at zero, so it ends as the widest access below the group.
      have hw : m.widest h = m.widestIn ((m.children h).flatMap m.postorder) := by
        rw [hwidest, Kind.accessBits_of_isGroup hk, zero_max32]
      rw [henter, hleave, hgroups, hw]
      exact Progress.leave_past p hw _

/-- The table has a row for each group, recorded in the order of a traversal. -/
theorem build_eq_recordAll (m : Model) (top : Nat) :
    build m top = recordAll m empty (m.groups top) :=
  congrArg Progress.table (foldl_walk m top ⟨[], empty⟩)

/-- **What the table holds**: for a path, the widest access in the last group with this path. -/
theorem width?_build (m : Model) (top : Nat) (p : String) :
    (build m top).width? p =
      ((m.groups top).reverse.find? fun g => m.path g == p).map m.widest := by
  rw [build_eq_recordAll, width?_recordAll]
  exact Option.or_none

theorem width?_build_path {m : Model} {top g : Nat} (hg : g ∈ m.groups top)
    (hpaths : ∀ a ∈ m.groups top, m.path a = m.path g → a = g) :
    (build m top).width? (m.path g) = some (m.widest g) := by
  rw [width?_build]
  cases hfind : (m.groups top).reverse.find? fun a => m.path a == m.path g with
  | none =>
    have := List.find?_eq_none.1 hfind g (List.mem_reverse.2 hg)
    simp at this
  | some a =>
    have hmem : a ∈ m.groups top := List.mem_reverse.1 (List.mem_of_find?_eq_some hfind)
    have hpath : m.path a = m.path g := by simpa using List.find?_some hfind
    rw [hpaths a hmem hpath]
    rfl

end WidthTable

/-! ## Bytes -/

theorem toNat_busBytes {path : String} {bits bytes : UInt32}
    (h : (busBytes path bits).outcome = .ok bytes) :
    bytes.toNat = max 1 ((bits.toNat + 7) / 8) := by
  unfold busBytes at h
  by_cases hbits : bits = 0
  · rw [if_pos hbits] at h
    obtain rfl : (1 : UInt32) = bytes := Except.ok.inj h
    rw [hbits]
    rfl
  · rw [if_neg hbits] at h
    obtain ⟨padded, hpadded, hret⟩ := bind_eq_ok.1 h
    obtain rfl := Except.ok.inj hret
    have hsum : padded.toNat = bits.toNat + 7 := Checked.add32_eq_ok_iff.1 hpadded
    have hpos : bits.toNat ≠ 0 := fun h0 => hbits (UInt32.toNat_inj.1 h0)
    rw [UInt32.toNat_div, hsum]
    show (bits.toNat + 7) / 8 = _
    omega

theorem onlyOverflow_busBytes (path : String) (bits : UInt32) :
    OnlyOverflow (busBytes path bits).outcome := by
  unfold busBytes
  split
  · exact onlyOverflow_ok 1
  · exact (Checked.onlyOverflow_within _).bind fun padded => onlyOverflow_ok (padded / 8)

end RegLayer
