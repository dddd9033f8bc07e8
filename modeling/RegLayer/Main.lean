/-
# `RegLayer.Main` — the program

The program runs on the file system of the machine.  It prints and logs the outcome of its run and
leaves with its code; nothing is decided here, and nothing here is proved about.

The five operations of `Files` are the machine's own.  Its refusals are turned into those that the
library names (`FileFault.ofError`), by the codes that Linux gives them; a refusal that is none of
these keeps the machine's words.
-/
import RegLayer.CommandLine.Run

namespace RegLayer

/-- Whether a code of the machine, which can come with either sign, is this one. -/
def isCode (code known : UInt32) : Bool :=
  code == known || code == 0 - known

/-- What the machine's refusal of a file operation means. -/
def FileFault.ofError : IO.Error → FileFault
  | .noFileOrDirectory _ _ _ => .notFound
  | .alreadyExists _ _ _ => .alreadyExists
  | .inappropriateType _ code _ => if isCode code 20 then .notADirectory else .isADirectory
  | .invalidArgument file code details =>
    if isCode code 36 then .nameTooLong
    else .other (toString (IO.Error.invalidArgument file code details))
  | e => .other (toString e)

/-- The answer of a file operation of the machine. -/
def answered {α : Type} (act : IO α) : IO (Except FileFault α) := do
  try
    return .ok (← act)
  catch e => return .error (.ofError e)

/-- Whether a path leads to something. -/
def leadsSomewhere (path : String) : IO Bool := do
  try
    let _ ← IO.FS.realPath path
    return true
  catch _ => return false

/-- Whether a path leads to a directory. -/
def leadsToDirectory (path : String) : IO Bool :=
  if path = "" then return false else leadsSomewhere (Path.inside path ".")

/-- The text of a file. -/
def readText (path : String) : IO (Except FileFault String) := do
  match ← answered (IO.FS.readBinFile path) with
  | .error e => return .error e
  | .ok bytes =>
    match String.fromUTF8? bytes with
    | some text => return .ok text
    | none => return .error .notText

instance : Files IO where
  isDirectory := leadsToDirectory
  isFile path := return (← leadsSomewhere path) && !(← leadsToDirectory path)
  read := readText
  makeDirectories path := answered (IO.FS.createDirAll path)
  write path text := answered (IO.FS.writeBinFile path text.toUTF8)

end RegLayer

open RegLayer in
/-- Runs the program on the words of its command line. -/
def main (words : List String) : IO UInt32 := do
  let outcome ← CommandLine.run words (← IO.getEnv "RUST_LOG")
  IO.print outcome.printed
  if outcome.code = 2 then IO.eprintln "error: invalid arguments; try --help"
  for (level, text) in outcome.log do
    IO.eprintln (" " ++ level.name ++ " uvm_ral > " ++ text)
  return UInt32.ofNat outcome.code
