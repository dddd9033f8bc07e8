/-
# `RegLayer.Files.Disk` — a file system as a value

A disk holds files and folders under their absolute places and knows the folder in which relative
paths start.  It follows the rules of a Linux system, as far as a run can meet them:

* a path is followed one part at a time, and every part but the last has to lead to a folder; `.`
  stays, `..` goes up, and the root is above itself;
* no part has more than 255 bytes, and no path more than 4095;
* a slash at the end insists on a folder, and is refused for a file that is to be made as soon as
  the folder above is found;
* making folders makes what is missing above, and does not mind a folder that is there;
* the null device takes whatever is written, keeps none of it, and reads as an empty text.

Left out are links, permissions and other processes: an operation that succeeds does what it says,
and nothing happens between two of them.  So "no file was touched" is said of the disk as a whole.
-/
import RegLayer.Files.Basic

namespace RegLayer

/-- What a disk holds at a place. -/
inductive Item where
  | folder
  | file (content : ByteArray)
  /-- The device that takes whatever is written and has nothing to read. -/
  | null

/-- Whether there is a folder. -/
def Item.isFolder : Option Item → Bool
  | some .folder => true
  | _ => false

/-- Items under their places, and the place where relative paths start. -/
structure Disk where
  items : List (List String × Item)
  home : List String

namespace Disk

/-- The item at a place; the root is always there. -/
def item? (d : Disk) (place : List String) : Option Item :=
  match place with
  | [] => some .folder
  | _ => d.items.lookup place

/-- The disk with an item put at a place, instead of what was there. -/
def put (d : Disk) (place : List String) (item : Item) : Disk :=
  { d with items := (place, item) :: d.items.filter (·.1 != place) }

/-- A disk with an empty home folder, a folder for passing files, and the null device. -/
def new : Disk where
  items :=
    [(["home"], .folder), (["tmp"], .folder), (["dev"], .folder),
      (["dev", "null"], .null)]
  home := ["home"]

/-! ## Following paths -/

/-- The bytes that a name can have at most. -/
def longestName : Nat := 255

/-- The bytes that a path can have at most. -/
def longestPath : Nat := 4095

/-- Follows one part of a path. -/
def follow (d : Disk) (place : List String) (part : String) : Except FileFault (List String) :=
  if part = "" then .ok place
  else
    match d.item? place with
    | none => .error .notFound
    | some (.file _) | some .null => .error .notADirectory
    | some .folder =>
      if part = "." then .ok place
      else if part = ".." then .ok place.dropLast
      else if longestName < part.utf8ByteSize then .error .nameTooLong
      else .ok (place ++ [part])

/-- Follows parts of a path, from where the path starts. -/
def followFrom (d : Disk) (path : String) (parts : List String) :
    Except FileFault (List String) :=
  if path = "" then .error .notFound
  else if longestPath < path.utf8ByteSize then .error .nameTooLong
  else parts.foldlM d.follow (if Path.isAbsolute path then [] else d.home)

/-- The place that a path leads to; there need not be anything. -/
def locate (d : Disk) (path : String) : Except FileFault (List String) :=
  d.followFrom path (Text.split '/' path)

/-- Whether a path insists on a folder. -/
def wantsFolder (path : String) : Bool :=
  path.toList.getLast? == some '/'

/-! ## Operations -/

def isDirectory (d : Disk) (path : String) : Bool :=
  match d.locate path with
  | .ok place => Item.isFolder (d.item? place)
  | .error _ => false

def isFile (d : Disk) (path : String) : Bool :=
  match d.locate path with
  | .ok place =>
    match d.item? place with
    | some (.file _) => !wantsFolder path
    | _ => false
  | .error _ => false

/-- The text of the file at a path. -/
def read (d : Disk) (path : String) : Except FileFault String := do
  let place ← d.locate path
  match d.item? place with
  | none => throw .notFound
  | some .folder => throw .isADirectory
  | some (.file content) =>
    if wantsFolder path then throw .notADirectory
    match String.fromUTF8? content with
    | some text => return text
    | none => throw .notText
  | some .null =>
    if wantsFolder path then throw .notADirectory
    return ""

/-- Makes one folder. -/
def makeFolder (d : Disk) (path : String) : Except FileFault Disk := do
  let place ← d.locate path
  match d.item? place with
  | some _ => throw .alreadyExists
  | none => return d.put place .folder

/-- A refusal to make a folder does not matter where there is a folder. -/
def orPresent (d : Disk) (path : String) : Except FileFault Disk → Except FileFault Disk
  | .ok d => .ok d
  | .error e => if d.isDirectory path then .ok d else .error e

/-- Makes the first of the paths a folder, and before it, as far as it is missing, the next
one. -/
def makeFolders (d : Disk) : List String → Except FileFault Disk
  | [] => .error .notFound
  | path :: above =>
    if path = "" then .ok d
    else
      match d.makeFolder path with
      | .error .notFound => do
        let d ← d.makeFolders above
        d.orPresent path (d.makeFolder path)
      | answer => d.orPresent path answer

/-- The parts of a path above the last one that is a name. -/
def partsAbove (path : String) : List String :=
  ((Text.split '/' path).reverse.dropWhile (· == "")).reverse.dropLast

/-- Makes a text the content of the file at a path; the null device keeps none of it.  A slash at
the end is refused as soon as the folder above is found. -/
def write (d : Disk) (path text : String) : Except FileFault Disk := do
  if wantsFolder path then
    let _ ← d.followFrom path (partsAbove path ++ ["."])
    throw .isADirectory
  let place ← d.locate path
  match d.item? place with
  | some .folder => throw .isADirectory
  | some .null => return d
  | some (.file _) | none => return d.put place (.file text.toUTF8)

/-- Keeps the new disk of an operation that succeeds, and the old one otherwise. -/
def keep (operation : Disk → Except FileFault Disk) : StateM Disk (Except FileFault Unit) :=
  fun d =>
    match operation d with
    | .ok d => (.ok (), d)
    | .error e => (.error e, d)

instance : Files (StateM Disk) where
  isDirectory path := fun d => (d.isDirectory path, d)
  isFile path := fun d => (d.isFile path, d)
  read path := fun d => (d.read path, d)
  makeDirectories path := keep (·.makeFolders (Path.upwards path))
  write path text := keep (·.write path text)

/-! ## Filling and listing -/

/-- The folders above a place, from the root down. -/
def foldersAbove (place : List String) : List (List String) :=
  (List.range (place.length - 1)).map fun n => place.take (n + 1)

/-- Puts an item at a path below home, with the folders above it. -/
def supply (d : Disk) (path : String) (item : Item) : Disk :=
  let place := d.home ++ Path.parts path
  let d := (foldersAbove place).foldl
    (fun d p => if (d.item? p).isNone then d.put p .folder else d) d
  match item, d.item? place with
  | .folder, some _ => d
  | _, _ => d.put place item

/-- The files below home, by their paths from there. -/
def files (d : Disk) : List (String × ByteArray) :=
  d.items.filterMap fun (place, item) =>
    match item, d.home.isPrefixOf? place with
    | .file content, some rest => some (Text.join "/" rest, content)
    | _, _ => none

end Disk

end RegLayer
