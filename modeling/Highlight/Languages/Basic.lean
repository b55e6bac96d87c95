import Highlight.Languages.CFamily
import Highlight.Languages.Python
import Highlight.Languages.Rust
import Highlight.Languages.Toml

/-! # Built-in grammars -/

namespace Highlight.Languages

/-- The built-in grammars with the styles of a theme. -/
def all (theme : Theme) : List Grammar :=
  [Rust.grammar theme, CFamily.grammar theme, Python.grammar theme, Toml.grammar theme]

/-- The built-in grammar with the given name. -/
def named? (theme : Theme) (name : String) : Option Grammar :=
  (all theme).find? fun grammar => grammar.name == name

end Highlight.Languages
