/-
# `RegLayer.Files.Basic` — work that touches files

What a run needs from a file system is five operations (`Files`): two questions about paths,
reading a text, making folders, writing a text.  They can be refused, and the refusal is a fault
of the run (`Session.ask`).

Work that uses them can fail and leaves notices like all other work, so a report can be taken into
it (`ofReport`).  Nothing is said here about what the operations do; a file system that is a value
is `RegLayer.Files.Disk`.
-/
import RegLayer.Files.Path
import RegLayer.Report

namespace RegLayer

/-- The operations of a file system. -/
class Files (m : Type → Type) where
  isDirectory : String → m Bool
  isFile : String → m Bool
  /-- The text of a file. -/
  read : String → m (Except FileFault String)
  /-- Makes a directory and all that is missing above it. -/
  makeDirectories : String → m (Except FileFault Unit)
  /-- Makes a text the content of a file, which is made if it is missing. -/
  write : String → String → m (Except FileFault Unit)

/-- Work over a file system that can fail and leaves notices. -/
abbrev Session (m : Type → Type) (α : Type) : Type :=
  ExceptT Failure (StateT (List Notice) m) α

namespace Session

variable {m : Type → Type} [Monad m]

/-- Does what has been reported: its notices are left, and its failure ends the work. -/
def ofReport {α : Type} (r : Report α) : Session m α := do
  modify (· ++ r.notices)
  match r.outcome with
  | .ok a => return a
  | .error e => throw e

/-- Ends the work with a fault. -/
def fail {α : Type} (f : Fault) : Session m α :=
  throw (.fault f)

/-- Takes the answer of a file operation; a refusal ends the work. -/
def ask {α : Type} (answer : m (Except FileFault α)) : Session m α := do
  match ← (answer : Session m (Except FileFault α)) with
  | .ok a => return a
  | .error e => fail (.file e)

/-- Does work on the content of a file; a fault in it is reported with `place`. -/
def located {α : Type} (place : Fault → Fault) (r : Report α) : Session m α :=
  ofReport
    { r with
      outcome := r.outcome.mapError fun
        | .fault f => .fault (place f)
        | .abort a => .abort a }

/-- The notices and the outcome of work, once it is done. -/
def report {α : Type} (s : Session m α) : m (Report α) := do
  let (outcome, notices) ← s.run.run []
  return ⟨notices, outcome⟩

end Session

end RegLayer
