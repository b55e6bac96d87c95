import Highlight.Catalog.Extension
import Highlight.Languages.Basic
import Highlight.Text.Lowercase

/-! # Catalogs of grammars

A catalog finds grammars by name and by the extension of a file. A grammar that is added takes the place
of one with the same name, and takes over its extensions from the grammars that had them before.
-/

namespace Highlight

/-- Grammars by name, and for each extension in lower case the name of the grammar added for it last. -/
structure Catalog where
  grammars : List (String × Grammar)
  owners : List (String × String)

namespace Catalog

/-- The catalog without any grammar. -/
def empty : Catalog := ⟨[], []⟩

/-- Adds a grammar. -/
def add (catalog : Catalog) (grammar : Grammar) : Catalog where
  grammars := (grammar.name, grammar) :: catalog.grammars.filter (·.1 != grammar.name)
  owners :=
    grammar.extensions.foldl
      (fun owners extension => (Text.lowercase extension, grammar.name) :: owners) catalog.owners

/-- The catalog of the built-in grammars with the styles of a theme. -/
def builtIn (theme : Theme) : Catalog := (Languages.all theme).foldl add empty

/-- The grammar with the given name. -/
def get? (catalog : Catalog) (name : String) : Option Grammar := catalog.grammars.lookup name

/-- Whether two names differ at most in the case of ASCII letters. -/
def sameName (left right : String) : Bool :=
  left.toList.map Char.toLower == right.toList.map Char.toLower

/-- The grammar with the given name, or else one whose name differs only in case. -/
def find? (catalog : Catalog) (name : String) : Option Grammar :=
  (catalog.get? name).or
    ((catalog.grammars.find? fun entry => sameName entry.1 name).map Prod.snd)

/-- The grammar for a file, by its extension. -/
def detect? (catalog : Catalog) (path : String) : Option Grammar := do
  let extension ← extension? path
  let name ← catalog.owners.lookup (Text.lowercase extension)
  catalog.get? name

/-- The names of all grammars in ascending order. -/
def names (catalog : Catalog) : List String :=
  (catalog.grammars.map Prod.fst).mergeSort fun left right => decide (left ≤ right)

end Catalog

end Highlight
