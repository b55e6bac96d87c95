import Highlight.Languages.Fragments

/-! # The C grammar

Block comments are the only construct that runs over lines. The grammar also covers the keywords that C++
adds.
-/

namespace Highlight.Languages.CFamily

/-- A character literal. -/
def character : Pattern := .literal "'(?:[^'\\\\]|\\\\[^']+)'" rfl (by decide +kernel)

/-- A preprocessor directive. -/
def directive : Pattern := .literal "^\\s*#\\s*\\w+" rfl (by decide +kernel)

/-- A keyword of C. -/
def keyword : Pattern :=
  .anyWord
    ["auto", "break", "case", "char", "const", "continue", "default", "do", "double", "else",
      "enum", "extern", "float", "for", "goto", "if", "inline", "int", "long", "register",
      "restrict", "return", "short", "signed", "sizeof", "static", "struct", "switch", "typedef",
      "union", "unsigned", "void", "volatile", "while", "_Alignas", "_Alignof", "_Atomic", "_Bool",
      "_Complex", "_Generic", "_Imaginary", "_Noreturn", "_Static_assert", "_Thread_local"]
    (by decide +kernel)

/-- A keyword that C++ adds. -/
def extendedKeyword : Pattern :=
  .anyWord
    ["alignas", "alignof", "and", "and_eq", "asm", "bitand", "bitor", "bool", "catch", "class",
      "compl", "concept", "consteval", "constexpr", "constinit", "const_cast", "co_await",
      "co_return", "co_yield", "decltype", "delete", "dynamic_cast", "explicit", "export", "false",
      "friend", "mutable", "namespace", "new", "noexcept", "not", "not_eq", "nullptr", "operator",
      "or", "or_eq", "private", "protected", "public", "reinterpret_cast", "requires",
      "static_assert", "static_cast", "template", "this", "thread_local", "throw", "true", "try",
      "typeid", "typename", "using", "virtual", "xor", "xor_eq"]
    (by decide +kernel)

/-- A type of the standard library. -/
def typeName : Pattern :=
  .anyWord
    ["size_t", "ptrdiff_t", "intptr_t", "uintptr_t", "int8_t", "int16_t", "int32_t", "int64_t",
      "uint8_t", "uint16_t", "uint32_t", "uint64_t", "FILE", "NULL"]
    (by decide +kernel)

/-- A number. -/
def number : Pattern :=
  .joined
    ["\\b(?:0[xX][0-9a-fA-F]+[uUlL]*|\\d+\\.\\d*(?:[eE][+-]?\\d+)?[fFlL]?|\\d+[uUlL]*)\\b|",
      "\\.\\d+(?:[eE][+-]?\\d+)?[fFlL]?\\b"]
    (by decide +kernel)

/-- A run of operator characters. -/
def operator : Pattern := .literal "[+\\-*/%&|^!<>=~?:]+" rfl (by decide +kernel)

/-- A comment between its delimiters. -/
def blockComment (theme : Theme) : Span :=
  { opening := commentOpening, closing := commentClosing
    bodyStyle := some (theme.token .comment), inner := some 2 }

/-- The grammar with the styles of a theme. -/
def grammar (theme : Theme) : Grammar where
  name := "C"
  extensions := ["c", "h", "cpp", "hpp", "cc", "cxx"]
  main :=
    { name := "C"
      spans :=
        [blockComment theme, lineComment theme slashes (some 2),
          lineString theme quote quoteOrLineEnd (some 1), tokenSpan theme character .char]
      rules :=
        [rule theme directive .preprocessor, rule theme keyword .keyword,
          rule theme extendedKeyword .keyword, rule theme typeName .type,
          rule theme number .number, rule theme operator .operator] }
  nested := [escapes theme, commentMarkers theme]
  theme := theme

end Highlight.Languages.CFamily
