/-
# `RegLayer.Proofs.Files.Session` — how work on a disk ends

Work on a disk comes to an outcome and leaves a disk (`Ends`); what was noticed before has no part
in either.  A chain goes on where its first part ended, and ends with its first failure
(`Ends.bind`, `Ends.bind_error`).  Most parts only read: they end somehow on every disk and leave
it as it is (`Reads`), and a chain of such parts is one, too.

These rules take a run apart without unfolding its monads.  Read backwards they say what a
successful chain went through (`Reads.of_bind`), which uses that work ends in one way only
(`Ends.unique`).
-/
import RegLayer.Proofs.Files.Disk

namespace RegLayer.Session

variable {α β : Type} {d d' d'' : Disk} {s : Session (StateM Disk) α}
  {f : α → Session (StateM Disk) β}

/-- Whatever was noticed before, the work comes to this outcome and leaves the second disk. -/
def Ends (s : Session (StateM Disk) α) (d : Disk) (r : Except Failure α) (d' : Disk) : Prop :=
  ∀ before, ∃ after, (s.run.run before).run d = ((r, after), d')

/-- On every disk, the work comes to an outcome and leaves the disk as it is. -/
def Reads (s : Session (StateM Disk) α) : Prop :=
  ∀ d, ∃ r, Ends s d r d

/-! ## Chains -/

theorem ends_pure (a : α) (d : Disk) : Ends (pure a) d (.ok a) d :=
  fun before => ⟨before, rfl⟩

theorem Ends.bind {a : α} {r : Except Failure β} (hs : Ends s d (.ok a) d')
    (hf : Ends (f a) d' r d'') : Ends (s >>= f) d r d'' := by
  intro before
  obtain ⟨mid, hmid⟩ := hs before
  obtain ⟨after, hafter⟩ := hf mid
  refine ⟨after, ?_⟩
  rw [ExceptT.run_bind, StateT.run_bind, StateT.run_bind, hmid]
  exact hafter

theorem Ends.bind_error {e : Failure} (hs : Ends s d (.error e) d') :
    Ends (s >>= f) d (.error e) d' := by
  intro before
  obtain ⟨after, hafter⟩ := hs before
  refine ⟨after, ?_⟩
  rw [ExceptT.run_bind, StateT.run_bind, StateT.run_bind, hafter]
  rfl

theorem reads_pure (a : α) : Reads (pure a) :=
  fun d => ⟨.ok a, ends_pure a d⟩

theorem Reads.bind (hs : Reads s) (hf : ∀ a, Reads (f a)) : Reads (s >>= f) := by
  intro d
  obtain ⟨r, hr⟩ := hs d
  cases r with
  | error e => exact ⟨.error e, hr.bind_error⟩
  | ok a =>
    obtain ⟨r', hr'⟩ := hf a d
    exact ⟨r', hr.bind hr'⟩

theorem Ends.unique {r r' : Except Failure α} (h : Ends s d r d') (h' : Ends s d r' d'') :
    r = r' ∧ d' = d'' := by
  obtain ⟨_, hrun⟩ := h []
  obtain ⟨_, hrun'⟩ := h' []
  obtain ⟨hr, hd⟩ := Prod.mk.inj (hrun.symm.trans hrun')
  exact ⟨(Prod.mk.inj hr).1, hd⟩

/-- A chain of two readings that comes to something is taken apart. -/
theorem Reads.of_bind {b : β} (hs : Reads s) (hf : ∀ a, Reads (f a))
    (h : Ends (s >>= f) d (.ok b) d') : ∃ a, Ends s d (.ok a) d ∧ Ends (f a) d (.ok b) d := by
  obtain ⟨r, hr⟩ := hs d
  cases r with
  | error e => cases (hr.bind_error.unique h).1
  | ok a =>
    obtain ⟨r', hr'⟩ := hf a d
    obtain ⟨rfl, _⟩ := (hr.bind hr').unique h
    exact ⟨a, hr, hr'⟩

/-- The work ends with a failure, and what it leaves differs in nothing but folders. -/
def Fails (s : Session (StateM Disk) α) (d : Disk) : Prop :=
  ∃ e d', Ends s d (.error e) d' ∧ d.OnlyFolders d'

theorem Ends.fails {e : Failure} (h : Ends s d (.error e) d) : Fails s d :=
  ⟨e, d, h, .refl d⟩

theorem Fails.bind (h : Fails s d) : Fails (s >>= f) d := by
  obtain ⟨e, d', hs, hfolders⟩ := h
  exact ⟨e, d', hs.bind_error, hfolders⟩

theorem Ends.bind_fails {a : α} (hs : Ends s d (.ok a) d') (hfolders : d.OnlyFolders d')
    (hf : Fails (f a) d') : Fails (s >>= f) d := by
  obtain ⟨e, d'', hend, hfolders'⟩ := hf
  exact ⟨e, d'', hs.bind hend, hfolders.trans hfolders'⟩

/-! ## Parts -/

theorem ends_ofReport (r : Report α) (d : Disk) : Ends (ofReport r) d r.outcome d := by
  intro before
  refine ⟨before ++ r.notices, ?_⟩
  obtain ⟨notices, outcome⟩ := r
  cases outcome <;> rfl

theorem reads_ofReport (r : Report α) : Reads (ofReport r) :=
  fun d => ⟨r.outcome, ends_ofReport r d⟩

theorem reads_located (place : Fault → Fault) (r : Report α) : Reads (located place r) :=
  reads_ofReport _

theorem ends_fail (f : Fault) (d : Disk) :
    Ends (fail f : Session (StateM Disk) α) d (.error (.fault f)) d :=
  fun before => ⟨before, rfl⟩

theorem reads_fail (f : Fault) : Reads (fail f : Session (StateM Disk) α) :=
  fun d => ⟨.error (.fault f), ends_fail f d⟩

theorem ends_isDirectory (path : String) (d : Disk) :
    Ends (liftM (Files.isDirectory path : StateM Disk Bool)) d (.ok (d.isDirectory path)) d :=
  fun before => ⟨before, rfl⟩

theorem ends_isFile (path : String) (d : Disk) :
    Ends (liftM (Files.isFile path : StateM Disk Bool)) d (.ok (d.isFile path)) d :=
  fun before => ⟨before, rfl⟩

theorem ends_ask {answer : StateM Disk (Except FileFault α)} {r : Except FileFault α}
    (h : answer.run d = (r, d')) :
    Ends (ask answer) d (r.mapError fun e => .fault (.file e)) d' := by
  intro before
  refine ⟨before, ?_⟩
  have hrun : (((liftM answer : Session (StateM Disk) (Except FileFault α)).run.run before).run d)
      = ((.ok r, before), d') :=
    congrArg (fun p : Except FileFault α × Disk => ((Except.ok p.1, before), p.2)) h
  unfold ask
  rw [ExceptT.run_bind, StateT.run_bind, StateT.run_bind, hrun]
  cases r <;> rfl

theorem reads_ask_read (path : String) :
    Reads (ask (Files.read path) : Session (StateM Disk) String) :=
  fun _ => ⟨_, ends_ask rfl⟩

/-! ### What a part has read -/

theorem ofReport_ok {r : Report α} {a : α} (h : Ends (ofReport r) d (.ok a) d') :
    r.outcome = .ok a :=
  ((ends_ofReport r d).unique h).1

theorem located_ok {place : Fault → Fault} {r : Report α} {a : α}
    (h : Ends (located place r) d (.ok a) d') : r.outcome = .ok a :=
  mapError_eq_ok.1 (ofReport_ok h)

theorem ask_read_ok {path text : String}
    (h : Ends (ask (Files.read path) : Session (StateM Disk) String) d (.ok text) d') :
    d.read path = .ok text := by
  have hread : (Files.read path : StateM Disk (Except FileFault String)).run d =
    (d.read path, d) := rfl
  exact mapError_eq_ok.1 ((ends_ask hread).unique h).1

theorem ends_ask_keep (operation : Disk → Except FileFault Disk) (d : Disk) :
    (∃ e, operation d = .error e ∧
      Ends (ask (Disk.keep operation)) d (.error (.fault (.file e))) d) ∨
    ∃ d', operation d = .ok d' ∧ Ends (ask (Disk.keep operation)) d (.ok ()) d' := by
  cases hop : operation d with
  | error e =>
    have hkeep : (Disk.keep operation).run d = (.error e, d) := by
      show Disk.keep operation d = _
      unfold Disk.keep
      rw [hop]
    exact .inl ⟨e, rfl, ends_ask hkeep⟩
  | ok d' =>
    have hkeep : (Disk.keep operation).run d = (.ok (), d') := by
      show Disk.keep operation d = _
      unfold Disk.keep
      rw [hop]
    exact .inr ⟨d', rfl, ends_ask hkeep⟩

/-! ## Reports -/

theorem Ends.report {r : Except Failure α} (h : Ends s d r d') :
    ∃ notices, (Session.report s).run d = (⟨notices, r⟩, d') := by
  obtain ⟨after, hafter⟩ := h []
  refine ⟨after, ?_⟩
  unfold Session.report
  rw [StateT.run_bind, hafter]
  rfl

end RegLayer.Session
