import Highlight.Style.Basic

/-! # Token kinds

The standard kinds of token that grammars style, with their names and their default styles.
-/

namespace Highlight

/-- A standard kind of token. -/
inductive TokenKind where
  | comment
  | string
  | char
  | number
  | keyword
  | type
  | function
  | operator
  | preprocessor
  | macroCall
  | constant
  | special
  | decorator
  | lifetime
  | marker
  deriving DecidableEq

namespace TokenKind

/-- Every kind, in order of declaration. -/
def all : List TokenKind :=
  [comment, string, char, number, keyword, type, function, operator, preprocessor, macroCall,
    constant, special, decorator, lifetime, marker]

/-- The name under which a theme lists the kind. -/
def name : TokenKind → String
  | comment => "Comment"
  | string => "String"
  | char => "Char"
  | number => "Number"
  | keyword => "Keyword"
  | type => "Type"
  | function => "Function"
  | operator => "Operator"
  | preprocessor => "Preprocessor"
  | macroCall => "Macro"
  | constant => "Constant"
  | special => "Special"
  | decorator => "Attribute"
  | lifetime => "Lifetime"
  | marker => "Marker"

/-- The kind with the given name. -/
def ofName? (name : String) : Option TokenKind :=
  all.find? fun kind => kind.name == name

/-- The style of the kind where no theme says otherwise. -/
def defaultStyle : TokenKind → Style
  | comment => { foreground := some .brightBlack, italic := some true }
  | string | char => .colored .green
  | number => .colored .cyan
  | keyword => { foreground := some .magenta, weight := some .bold }
  | type => .colored .yellow
  | function => .colored .blue
  | operator => .colored .brightWhite
  | preprocessor | lifetime => .colored .brightMagenta
  | macroCall => .colored .brightCyan
  | constant => .colored .brightRed
  | special => .colored .brightYellow
  | decorator => .colored .brightBlue
  | marker =>
    { foreground := some .yellow, weight := some .bold, underline := some true }

end TokenKind

end Highlight
