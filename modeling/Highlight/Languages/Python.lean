import Highlight.Languages.Fragments

/-! # The Python grammar

A replacement field of a formatted string holds ordinary code: it makes the main rule set active again.
-/

namespace Highlight.Languages.Python

/-- The opening of a triple-quoted string with double quotes. -/
def docOpening : Pattern := .literal "(?:\\b[rRbBuUfF]\x7b1,2\x7d)?\"\"\"" rfl (by decide +kernel)

/-- The opening of a triple-quoted string with apostrophes. -/
def apostropheDocOpening : Pattern :=
  .literal "(?:\\b[rRbBuUfF]\x7b1,2\x7d)?'''" rfl (by decide +kernel)

/-- The opening of a formatted string with double quotes. -/
def formatOpening : Pattern := .literal "\\b[rR]?[fF][rR]?\"" rfl (by decide +kernel)

/-- The opening of a formatted string with apostrophes. -/
def apostropheFormatOpening : Pattern := .literal "\\b[rR]?[fF][rR]?'" rfl (by decide +kernel)

/-- The opening of a string with double quotes. -/
def stringOpening : Pattern := .literal "(?:\\b[rRbBuU]\x7b1,2\x7d)?\"" rfl (by decide +kernel)

/-- The opening of a string with apostrophes. -/
def apostropheStringOpening : Pattern :=
  .literal "(?:\\b[rRbBuU]\x7b1,2\x7d)?'" rfl (by decide +kernel)

/-- The opening of a replacement field. -/
def fieldOpening : Pattern := .literal "\\\x7b" rfl (by decide +kernel)

/-- The closing of a replacement field, or the end of the line. -/
def fieldClosing : Pattern := .literal "(?:\\\x7d)|$" rfl (by decide +kernel)

/-- A decorator. -/
def decorator : Pattern := .literal "@[\\w.]+" rfl (by decide +kernel)

/-- A keyword. -/
def keyword : Pattern :=
  .anyWord
    ["False", "None", "True", "and", "as", "assert", "async", "await", "break", "class", "continue",
      "def", "del", "elif", "else", "except", "finally", "for", "from", "global", "if", "import",
      "in", "is", "lambda", "nonlocal", "not", "or", "pass", "raise", "return", "try", "while",
      "with", "yield"]
    (by decide +kernel)

/-- The conventional names of the receiver of a method. -/
def receiver : Pattern := .anyWord ["self", "cls"] (by decide +kernel)

/-- A built-in function. -/
def builtin : Pattern :=
  .anyWord
    ["abs", "all", "any", "ascii", "bin", "bool", "bytearray", "bytes", "callable", "chr",
      "classmethod", "compile", "complex", "delattr", "dict", "dir", "divmod", "enumerate", "eval",
      "exec", "filter", "float", "format", "frozenset", "getattr", "globals", "hasattr", "hash",
      "help", "hex", "id", "input", "int", "isinstance", "issubclass", "iter", "len", "list",
      "locals", "map", "max", "memoryview", "min", "next", "object", "oct", "open", "ord", "pow",
      "print", "property", "range", "repr", "reversed", "round", "set", "setattr", "slice",
      "sorted", "staticmethod", "str", "sum", "super", "tuple", "type", "vars", "zip"]
    (by decide +kernel)

/-- A number. -/
def number : Pattern :=
  .joined
    ["\\b(?:0[xX][0-9a-fA-F_]+|0[bB][01_]+|0[oO][0-7_]+|",
      "\\d[\\d_]*(?:\\.\\d[\\d_]*)?(?:[eE][+-]?\\d+)?j?)\\b"]
    (by decide +kernel)

/-- A run of operator characters. -/
def operator : Pattern := .literal "[+\\-*/%&|^!<>=@~]+" rfl (by decide +kernel)

/-- A replacement field within one line. -/
def field (theme : Theme) : Span :=
  { opening := fieldOpening, closing := fieldClosing, openStyle := some (theme.token .special)
    closeStyle := some (theme.token .special), inner := some 0, multiline := false }

/-- The inside of a formatted string: escapes and replacement fields. -/
def formatBody (theme : Theme) : RuleSet :=
  { name := "f-string", spans := (escapes theme).spans ++ [field theme] }

/-- The grammar with the styles of a theme. -/
def grammar (theme : Theme) : Grammar where
  name := "Python"
  extensions := ["py", "pyw", "pyi"]
  main :=
    { name := "Python"
      spans :=
        [lineComment theme hash none,
          openString theme docOpening tripleQuote (some 1),
          openString theme apostropheDocOpening tripleApostrophe (some 1),
          lineString theme formatOpening quoteOrLineEnd (some 2),
          lineString theme apostropheFormatOpening apostropheOrLineEnd (some 2),
          lineString theme stringOpening quoteOrLineEnd (some 1),
          lineString theme apostropheStringOpening apostropheOrLineEnd (some 1)]
      rules :=
        [rule theme decorator .decorator, rule theme keyword .keyword,
          rule theme receiver .special, rule theme builtin .function,
          rule theme number .number, rule theme operator .operator] }
  nested := [escapes theme, formatBody theme]
  theme := theme

end Highlight.Languages.Python
