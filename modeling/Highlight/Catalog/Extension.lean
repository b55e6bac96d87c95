/-! # File extensions

The extension of a path is what follows the last dot of its last component, unless that dot stands first.
-/

namespace Highlight.Catalog

/-- The stretches of a path between slashes. -/
def components (path : List Char) : List (List Char) := path.splitOn '/'

/-- The last component of a path. Empty components and single dots do not count, and the parent directory
is no file. -/
def fileName? (path : List Char) : Option (List Char) :=
  let parts := (components path).filter fun part => part ≠ [] ∧ part ≠ ['.']
  parts.getLast?.filter (· ≠ ['.', '.'])

/-- The extension of a path. -/
def extension? (path : String) : Option String := do
  let name ← fileName? path.toList
  let reversed := name.reverse
  match reversed.dropWhile (· != '.') with
  | [] => none
  | [_] => none
  | _ => some (String.ofList (reversed.takeWhile (· != '.')).reverse)

end Highlight.Catalog
