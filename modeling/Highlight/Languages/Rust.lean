import Highlight.Languages.Fragments

/-! # The Rust grammar

Block comments nest: the rule set of a comment body opens the same span again. Raw strings, with one hash
sign or none, have no escapes.
-/

namespace Highlight.Languages.Rust

/-- The opening of a raw string with a hash sign. -/
def hashedRawOpening : Pattern := .literal "\\bb?r#\"" rfl (by decide +kernel)

/-- The closing of a raw string with a hash sign. -/
def hashedRawClosing : Pattern := .literal "\"#" rfl (by decide +kernel)

/-- The opening of a raw string without a hash sign. -/
def rawOpening : Pattern := .literal "\\bb?r\"" rfl (by decide +kernel)

/-- The opening of a string. -/
def stringOpening : Pattern := .literal "(?:\\bb)?\"" rfl (by decide +kernel)

set_option maxRecDepth 20000 in
/-- A character or byte literal. -/
def character : Pattern :=
  .literal
    "(?:\\bb)?'(?:[^'\\\\]|\\\\(?:x[0-9a-fA-F]\x7b2\x7d|u\\\x7b[0-9a-fA-F]\x7b1,6\x7d\\\x7d|.))'"
    rfl (by decide +kernel)

/-- An attribute. -/
def attributePattern : Pattern := .literal "#!?\\[[^\\]]*\\]" rfl (by decide +kernel)

/-- A lifetime. -/
def lifetime : Pattern := .literal "'\\w+" rfl (by decide +kernel)

/-- A call of a macro. -/
def macroCall : Pattern := .literal "\\b\\w+!" rfl (by decide +kernel)

/-- A keyword. -/
def keyword : Pattern :=
  .anyWord
    ["as", "async", "await", "break", "const", "continue", "crate", "dyn", "else", "enum", "extern",
      "false", "fn", "for", "if", "impl", "in", "let", "loop", "match", "mod", "move", "mut", "pub",
      "ref", "return", "self", "Self", "static", "struct", "super", "trait", "true", "type",
      "union", "unsafe", "use", "where", "while"]
    (by decide +kernel)

/-- A built-in type, or a name of the prelude. -/
def typeName : Pattern :=
  .anyWord
    ["bool", "char", "str", "u8", "u16", "u32", "u64", "u128", "usize", "i8", "i16", "i32", "i64",
      "i128", "isize", "f32", "f64", "String", "Vec", "Box", "Rc", "Arc", "Option", "Result",
      "Some", "None", "Ok", "Err"]
    (by decide +kernel)

/-- A capitalized name. -/
def capitalized : Pattern := .literal "\\b[A-Z][a-zA-Z0-9_]*\\b" rfl (by decide +kernel)

/-- A number. -/
def number : Pattern :=
  .joined
    ["\\b(?:0x[0-9a-fA-F_]+|0b[01_]+|0o[0-7_]+|\\d[\\d_]*(?:\\.\\d[\\d_]*)?(?:[eE][+-]?\\d+)?)",
      "(?:[iu](?:8|16|32|64|128|size)|f32|f64)?\\b"]
    (by decide +kernel)

/-- A run of operator characters. -/
def operator : Pattern := .literal "[+\\-*/%&|^!<>=@]+" rfl (by decide +kernel)

/-- A comment between its delimiters, in which further comments may stand. -/
def blockComment (theme : Theme) : Span :=
  { opening := commentOpening, closing := commentClosing
    bodyStyle := some (theme.token .comment), inner := some 3 }

/-- The inside of a block comment. -/
def commentBody (theme : Theme) : RuleSet :=
  { commentMarkers theme with name := "block comment", spans := [blockComment theme] }

/-- The grammar with the styles of a theme. -/
def grammar (theme : Theme) : Grammar where
  name := "Rust"
  extensions := ["rs"]
  main :=
    { name := "Rust"
      spans :=
        [blockComment theme, lineComment theme slashes (some 2),
          openString theme hashedRawOpening hashedRawClosing none,
          openString theme rawOpening quote none, openString theme stringOpening quote (some 1),
          tokenSpan theme character .char]
      rules :=
        [rule theme attributePattern .decorator, rule theme lifetime .lifetime,
          rule theme macroCall .macroCall, rule theme keyword .keyword, rule theme typeName .type,
          rule theme capitalized .type, rule theme number .number,
          rule theme operator .operator] }
  nested := [escapes theme, commentMarkers theme, commentBody theme]
  theme := theme

end Highlight.Languages.Rust
