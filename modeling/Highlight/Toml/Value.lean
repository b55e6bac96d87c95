/-! # Values of a configuration file -/

namespace Highlight.Toml

/-- A value. Floating-point numbers, dates and times are kept as they are written. The entries of a table
have distinct keys in ascending order. -/
inductive Value where
  | string (text : String)
  | integer (value : Int)
  | float (written : String)
  | boolean (value : Bool)
  | moment (written : String)
  | array (items : List Value)
  | table (entries : List (String × Value))

/-- A table. -/
abbrev Table := List (String × Value)

namespace Value

/-- The value of a boolean. -/
def boolean? : Value → Option Bool
  | boolean value => some value
  | _ => none

/-- The text of a string. -/
def string? : Value → Option String
  | string text => some text
  | _ => none

/-- The entries of a table. -/
def table? : Value → Option Table
  | table entries => some entries
  | _ => none

end Value

end Highlight.Toml
