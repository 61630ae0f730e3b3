import Pseudocode.Text

/-!
# Paths

A path is components with slashes between. `Path.components` is how a file system walks it, and
`Path.normal` the shortest spelling that names the same components.
-/

namespace Pseudocode.Path

/-- Stands between the components of a path. -/
def separator : Char := '/'

/-- The component that stays where it is. -/
def here : Text := ['.']

/-- The component that leads to the directory above. -/
def up : Text := ['.', '.']

/-- The parts of a text between separators, one more than there are separators. -/
def split : Text → List Text
  | [] => [[]]
  | c :: rest =>
    if c = separator then [] :: split rest
    else
      match split rest with
      | [] => [[c]]
      | part :: more => (c :: part) :: more

/-- Whether the path starts at the root of the file system. -/
def isAbsolute (path : Text) : Bool :=
  path.head? = some separator

/-- The components in order. An empty one, which comes of a doubled or final slash, stays where
    it is. -/
def components (path : Text) : List Text :=
  (split path).map fun part => if part.isEmpty then here else part

/-- The slashes that an absolute path keeps at its front: one, or two if there are just two. -/
def root (path : Text) : Text :=
  match (path.takeWhile (· == separator)).length with
  | 0 => []
  | 2 => [separator, separator]
  | _ => [separator]

/-- The components that lead somewhere else. -/
def moving (path : Text) : List Text :=
  (components path).filter (· != here)

/-- The path without the components that stay where they are. -/
def normal (path : Text) : Text :=
  let text := root path ++ List.intercalate [separator] (moving path)
  if text.isEmpty then here else text

end Pseudocode.Path
