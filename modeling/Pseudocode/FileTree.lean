import Pseudocode.Path
import Pseudocode.ReadFailure

/-!
# File trees

A tree of directories and files, seen from a working directory. A path is walked component by
component (`FileTree.walk`); it leads to an entry (`FileTree.find`), to the bytes of a file
(`FileTree.read`) or to the scan of the source in it (`FileTree.scan`).
-/

namespace Pseudocode

/-- What stands at a place in a tree. -/
inductive Entry where
  | directory
  | file (bytes : List UInt8)
deriving DecidableEq

/-! ## Places -/

/-- A place in a tree: the names that lead to it from the working directory, the last first. Of
    what lies outside the working directory only the directories above it are known: the first
    name is then `..`, or a slash for the root of the file system. -/
abbrev Place := List Text

namespace Place

/-- The name of the root of the file system. -/
def rootName : Text := [Path.separator]

/-- Where the walk along a path starts: at the root or in the working directory. -/
def start (path : Text) : Place :=
  if Path.isAbsolute path then [rootName] else []

/-- Whether the place is the working directory or one of those known outside it. -/
def isAncestor (place : Place) : Bool :=
  place.all fun name => name = Path.up || name = rootName

/-- The place above. -/
def above : Place → Place
  | [] => [Path.up]
  | name :: rest =>
    if name = rootName then [rootName]
    else if name = Path.up then Path.up :: name :: rest
    else rest

/-- The place that a component of a path leads to. -/
def step (place : Place) (name : Text) : Place :=
  if name = Path.here then place
  else if name = Path.up then place.above
  else name :: place

/-- The place at the end of a path. -/
def ofPath (path : Text) : Place :=
  (Path.components path).foldl step (start path)

/-- All places along a walk over the components, the last first. -/
def along (place : Place) : List Text → List Place
  | [] => [place]
  | name :: rest => along (place.step name) rest ++ [place]

end Place

/-! ## Trees -/

/-- Entries by their places, the newest first. The directories that an entry lies in need no
    entries of their own. -/
structure FileTree where
  entries : List (Place × Entry)

namespace FileTree

/-- An empty working directory. -/
def empty : FileTree := ⟨[]⟩

/-- The tree with a directory at every place along the path. -/
def addDirectory (tree : FileTree) (path : Text) : FileTree :=
  ⟨((Place.start path).along (Path.components path)).map (·, .directory) ++ tree.entries⟩

/-- The tree with a file at the end of the path. -/
def addFile (tree : FileTree) (path : Text) (bytes : List UInt8) : FileTree :=
  ⟨(.ofPath path, .file bytes) :: tree.entries⟩

/-- What stands at the place. -/
def entry? (tree : FileTree) (place : Place) : Option Entry :=
  if place.isAncestor then some .directory
  else
    match tree.entries.find? fun e => e.1 = place with
    | some e => some e.2
    | none => if tree.entries.any fun e => place.isSuffixOf e.1 then some .directory else none

/-- The bytes that a name in a path may have at most. -/
def nameLimit : Nat := 255

/-- The bytes that a path may have at most. -/
def pathLimit : Nat := 4095

/-- Follows the components of `path` from a place. Each of them needs a directory to start
    from, and the name must fit and be there. -/
def walk (tree : FileTree) (path : Text) (place : Place) :
    List Text → Except ReadFailure Entry
  | [] =>
    match tree.entry? place with
    | some entry => .ok entry
    | none => .error (.missing path)
  | name :: rest =>
    match tree.entry? place with
    | none => .error (.missing path)
    | some (.file _) => .error (.notDirectory path)
    | some .directory =>
      if nameLimit < (Utf8.encode name).length then .error (.nameTooLong path)
      else tree.walk path (place.step name) rest

/-- The entry that the path leads to. -/
def find (tree : FileTree) (path : Text) : Except ReadFailure Entry :=
  if '\x00' ∈ path then .error .nullCharacter
  else if path.isEmpty then .error (.missing path)
  else if pathLimit < (Utf8.encode path).length then .error (.nameTooLong path)
  else tree.walk path (.start path) (Path.components path)

/-- Whether the path leads to a directory. -/
def isDirectory (tree : FileTree) (path : Text) : Bool :=
  match tree.find path with
  | .ok .directory => true
  | _ => false

/-- The bytes of the file that the path leads to. -/
def read (tree : FileTree) (path : Text) : Except ReadFailure (List UInt8) :=
  match tree.find path with
  | .ok (.file bytes) => .ok bytes
  | .ok .directory => .error (.directory path)
  | .error e => .error e

end FileTree

/-- The scan of the file that the path leads to, under the path as its name. -/
def FileTree.scan (tree : FileTree) (path : Text) : Except ReadFailure Scan := do
  let bytes ← tree.read path
  let source ← Source.ofBytes bytes path
  return source.scan

end Pseudocode
