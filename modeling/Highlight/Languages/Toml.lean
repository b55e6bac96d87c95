import Highlight.Languages.Fragments

/-! # The TOML grammar

Strings between three quotes or three apostrophes are the only constructs that run over lines. Strings
between quotes have escapes, those between apostrophes have none.
-/

namespace Highlight.Languages.Toml

/-- The header of a table. -/
def header : Pattern := .literal "^\\s*\\[\\[?[^\\]]+\\]\\]?" rfl (by decide +kernel)

/-- A bare key at the start of a line. -/
def key : Pattern := .literal "^\\s*[A-Za-z_][\\w.-]*" rfl (by decide +kernel)

/-- A boolean. -/
def boolean : Pattern := .anyWord ["true", "false"] (by decide +kernel)

/-- A date, a time or both. -/
def moment : Pattern :=
  .joined
    ["\\d\x7b4\x7d-\\d\x7b2\x7d-\\d\x7b2\x7d",
      "(?:[T ]\\d\x7b2\x7d:\\d\x7b2\x7d:\\d\x7b2\x7d(?:\\.\\d+)?(?:Z|[+-]\\d\x7b2\x7d:\\d\x7b2\x7d)?)?",
      "|\\d\x7b2\x7d:\\d\x7b2\x7d:\\d\x7b2\x7d(?:\\.\\d+)?"]
    (by decide +kernel)

/-- A number. -/
def number : Pattern :=
  .joined
    ["[+-]?(?:0x[0-9a-fA-F_]+|0o[0-7_]+|0b[01_]+|",
      "\\d[\\d_]*(?:\\.\\d[\\d_]*)?(?:[eE][+-]?\\d+)?|inf|nan)\\b"]
    (by decide +kernel)

/-- The grammar with the styles of a theme. -/
def grammar (theme : Theme) : Grammar where
  name := "TOML"
  extensions := ["toml"]
  main :=
    { name := "TOML"
      spans :=
        [lineComment theme hash none,
          openString theme tripleQuote tripleQuote (some 1),
          openString theme tripleApostrophe tripleApostrophe none,
          lineString theme quote quoteOrLineEnd (some 1),
          lineString theme apostrophe apostropheOrLineEnd none]
      rules :=
        [rule theme header .keyword, rule theme key .type, rule theme boolean .constant,
          rule theme moment .number, rule theme number .number] }
  nested := [escapes theme]
  theme := theme

end Highlight.Languages.Toml
