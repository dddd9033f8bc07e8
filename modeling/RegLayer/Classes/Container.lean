/-
# `RegLayer.Classes.Container` — what the classes are wrapped in

The classes stand in a package or behind an include guard.  Both are named after the output file:
the package after its stem, the guard after the whole file name in upper case.  Characters that
cannot stand in an identifier become underscores (`Text.wordChars`), so the names are never
refused; there is no name only for a path that does not end in a file name.

The container is chosen by the options and made before any class is, so a path without a file name
ends the run before the model is looked at.
-/
import RegLayer.Fault
import RegLayer.Files.Path
import RegLayer.Options.Basic
import RegLayer.Text.Upper
import RegLayer.Text.WordChar

namespace RegLayer.Classes

/-- A wrapping with its name. -/
inductive Container where
  | package (name : String)
  | header (guard : String)
  deriving DecidableEq, Repr

namespace Container

/-- The package name for an output file. -/
def packageName (path : String) : Except Failure String :=
  match Path.stem? path with
  | some stem => .ok (String.ofList (Text.wordChars stem.toList))
  | none => .error (.fault (.noPackageName path))

/-- The include guard for an output file. -/
def includeGuard (path : String) : Except Failure String :=
  match Path.fileName? path with
  | some name => .ok (Text.upper (String.ofList (Text.wordChars name.toList)))
  | none => .error (.fault (.noIncludeGuard path))

/-- The container for an output file. -/
def ofPath (style : ContainerStyle) (path : String) : Except Failure Container :=
  match style with
  | .package => package <$> packageName path
  | .header => header <$> includeGuard path

/-- The lines before the classes. -/
def opening : Container → List String
  | package name =>
    ["package " ++ name ++ ";", "    `include \"uvm_macros.svh\"", "    import uvm_pkg::*;", ""]
  | header guard => ["`ifndef " ++ guard, "`define " ++ guard, ""]

/-- The lines after the classes. -/
def closing : Container → List String
  | package name => ["endpackage: " ++ name]
  | header _ => ["`endif"]

end Container

end RegLayer.Classes
