/-
# `RegLayer.Report` — an outcome with what was noticed on the way

Reading and rendering leave notices: a memory map without registers, a class that could be used
again.  They are kept in the order in which they arise, and they are kept when the work ends in a
failure, too.  So a report is a list of notices beside an outcome, and not an outcome that may or
may not have notices.

What comes out never depends on the notices: the outcome of a chain is the chain of the outcomes
(`outcome_bind`).  Proofs about outcomes use this to leave the notices behind at the first step.
-/
import RegLayer.Fault

namespace RegLayer

/-! ## Notices -/

/-- How urgent a notice is, the most urgent first. -/
inductive Level where
  | error
  | warn
  | info
  | debug
  | trace
  deriving DecidableEq, Repr

namespace Level

/-- The place of a level among the levels. -/
def rank : Level → Nat
  | error => 0
  | warn => 1
  | info => 2
  | debug => 3
  | trace => 4

/-- The name under which a level is logged. -/
def name : Level → String
  | error => "ERROR"
  | warn => "WARN"
  | info => "INFO"
  | debug => "DEBUG"
  | trace => "TRACE"

/-- Whether a notice of this level is shown when levels up to `limit` are. -/
def shownAt (level limit : Level) : Bool :=
  level.rank ≤ limit.rank

end Level

/-- Everything that is noticed without ending the work. -/
inductive Notice where
  | clusterArray (key : String) (count : UInt32)
  | deviceImported (device : String) (peripherals : Nat)
  | bannerFound (path : String)
  | bridgeExported (top : String)
  | noRegisters (path : String)
  | classDefined (name path : String)
  | classReused (name path : String)
  | rendered (path : String) (classes : Nat)
  | written (path : String) (classes reused : Nat)
  deriving DecidableEq, Repr

namespace Notice

def level : Notice → Level
  | bridgeExported _ | noRegisters _ => .warn
  | deviceImported _ _ | written _ _ _ => .info
  | _ => .debug

def message : Notice → String
  | clusterArray key count => "Cluster " ++ key ++ " is an array of " ++ count.toNat.repr
  | deviceImported device peripherals =>
    "Imported device '" ++ device ++ "' with " ++ peripherals.repr ++ " peripherals"
  | bannerFound path => "Using banner template " ++ path
  | bridgeExported top =>
    "'" ++ top ++ "' is a bridge; its address spaces are exported as a single map"
  | noRegisters path => "'" ++ path ++ "' contains no registers; using a 1 byte bus width"
  | classDefined name path => "Defining " ++ name ++ " for " ++ path
  | classReused name path => "Reusing " ++ name ++ " for " ++ path
  | rendered path classes => "Rendered '" ++ path ++ "' with " ++ classes.repr ++ " classes"
  | written path classes reused =>
    "Wrote " ++ path ++ " (" ++ classes.repr ++ " classes, " ++ reused.repr ++ " reused)"

end Notice

/-! ## Reports -/

/-- The notices of a piece of work, in order, and its outcome. -/
structure Report (α : Type) where
  notices : List Notice
  outcome : Except Failure α

namespace Report

/-- What follows is done only after a success; its notices come after those before it. -/
protected def bind {α β : Type} (r : Report α) (f : α → Report β) : Report β :=
  match r.outcome with
  | .error e => ⟨r.notices, .error e⟩
  | .ok a => ⟨r.notices ++ (f a).notices, (f a).outcome⟩

instance : Monad Report where
  pure a := ⟨[], .ok a⟩
  bind := Report.bind

instance : MonadLift (Except Failure) Report where
  monadLift r := ⟨[], r⟩

/-- Leaves one notice. -/
def note (n : Notice) : Report Unit :=
  ⟨[n], .ok ()⟩

/-- Ends the work with a fault. -/
def fail {α : Type} (f : Fault) : Report α :=
  ⟨[], .error (.fault f)⟩

/-! ## Laws -/

variable {α β : Type}

@[simp] theorem outcome_pure (a : α) : (pure a : Report α).outcome = .ok a := rfl

/-- The outcome of work in two parts is that of its outcomes, whatever was noticed. -/
@[simp] theorem outcome_bind (r : Report α) (f : α → Report β) :
    (r >>= f).outcome = r.outcome >>= fun a => (f a).outcome := by
  obtain ⟨n, o⟩ := r
  cases o <;> rfl

instance : LawfulMonad Report :=
  LawfulMonad.mk' Report
    (by
      rintro α ⟨n, _ | a⟩
      · rfl
      · simp [Functor.map, Report.bind])
    (by
      intro α β a f
      simp [Bind.bind, Report.bind, Pure.pure])
    (by
      rintro α β γ ⟨n, _ | a⟩ f g
      · rfl
      · simp only [Bind.bind, Report.bind]
        cases (f a).outcome <;> simp)

end Report

end RegLayer
