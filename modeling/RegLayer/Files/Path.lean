/-
# `RegLayer.Files.Path` — parts of a path

A path is cut at its slashes.  Empty parts, and dots that do not come first, change nothing.  The
file name is the last part, unless that leads to where one already is or one level up; the stem
and the extension are the file name before and after its last dot, where a dot at the very front
does not count.

Paths are texts, and nothing here asks whether something is there.  A path is taken apart in one
place only (`parts`), and the other functions are said of the parts.  This is the lexical reading
of paths on Linux: `..` is a part like any other, and is not cancelled against the part before it.
-/
import RegLayer.Text.Pieces

namespace RegLayer.Path

/-- Whether a path starts at the root. -/
def isAbsolute (path : String) : Bool :=
  path.toList.head? == some '/'

/-- The parts of a path that count. -/
def parts (path : String) : List String :=
  match (Text.split '/' path).filter (· != "") with
  | [] => []
  | first :: others =>
    let others := others.filter (· != ".")
    if isAbsolute path && first == "." then others else first :: others

/-- The last part of a path, if it is the name of something. -/
def fileName? (path : String) : Option String :=
  match (parts path).getLast? with
  | some "." | some ".." | none => none
  | some name => some name

/-- The parts of a file name before and after its last dot. -/
def atLastDot? (name : String) : Option (String × String) :=
  let cs := name.toList
  let before := (cs.reverse.dropWhile (· != '.')).reverse.dropLast
  if before.isEmpty then none
  else some (String.ofList before, String.ofList (cs.drop (before.length + 1)))

/-- The file name without its extension. -/
def stem? (path : String) : Option String :=
  (fileName? path).map fun name => ((atLastDot? name).map (·.1)).getD name

/-- What follows the last dot of the file name. -/
def extension? (path : String) : Option String :=
  (fileName? path).bind fun name => (atLastDot? name).map (·.2)

/-- The path without its last part; the root and the empty path have none. -/
def parent? (path : String) : Option String :=
  match parts path with
  | [] => none
  | ps =>
    some ((if isAbsolute path then "/" else "") ++ Text.join "/" ps.dropLast)

/-- A path to something inside a directory. -/
def inside (dir name : String) : String :=
  match dir.toList.getLast? with
  | none | some '/' => dir ++ name
  | some _ => dir ++ "/" ++ name

/-- A path and the paths above it, longest first. -/
def upwards (path : String) : List String :=
  let root := if isAbsolute path then "/" else ""
  let ps := parts path
  path :: (List.range ps.length).reverse.map fun n => root ++ Text.join "/" (ps.take n)

end RegLayer.Path
