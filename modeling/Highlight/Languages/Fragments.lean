import Highlight.Grammar.Basic

/-! # Shared parts of the built-in grammars

Rule sets for the bodies of comments and strings, and spans for whole tokens.
-/

namespace Highlight.Languages

/-- The empty text. -/
def nothing : Pattern := .literal "" rfl (by decide +kernel)

/-- The end of a line, as the closing pattern of a span within the line. -/
def lineEnd : Pattern := .literal "(?:$)|$" rfl (by decide +kernel)

/-- A double quote. -/
def quote : Pattern := .literal "\"" rfl (by decide +kernel)

/-- A double quote, or the end of the line. -/
def quoteOrLineEnd : Pattern := .literal "(?:\")|$" rfl (by decide +kernel)

/-- An apostrophe. -/
def apostrophe : Pattern := .literal "'" rfl (by decide +kernel)

/-- An apostrophe, or the end of the line. -/
def apostropheOrLineEnd : Pattern := .literal "(?:')|$" rfl (by decide +kernel)

/-- Three double quotes. -/
def tripleQuote : Pattern := .literal "\"\"\"" rfl (by decide +kernel)

/-- Three apostrophes. -/
def tripleApostrophe : Pattern := .literal "'''" rfl (by decide +kernel)

/-- Two slashes. -/
def slashes : Pattern := .literal "//" rfl (by decide +kernel)

/-- A hash sign. -/
def hash : Pattern := .literal "#" rfl (by decide +kernel)

/-- The opening of a block comment. -/
def commentOpening : Pattern := .literal "/\\*" rfl (by decide +kernel)

/-- The closing of a block comment. -/
def commentClosing : Pattern := .literal "\\*/" rfl (by decide +kernel)

/-- A backslash. -/
def backslash : Pattern := .literal "\\\\" rfl (by decide +kernel)

/-- The character after a backslash, if the line has one. -/
def escaped : Pattern := .literal "(?:.)|$" rfl (by decide +kernel)

/-- A word that marks unfinished work. -/
def markerWord : Pattern := .anyWord ["TODO", "FIXME", "XXX", "HACK"] (by decide +kernel)

/-- A rule styled as a token kind. -/
def rule (theme : Theme) (pattern : Pattern) (kind : TokenKind) : Rule :=
  ⟨pattern, some (theme.token kind)⟩

/-- A span that closes where its opening match ends. A whole token declared in this way competes with the
openings of other spans for the earliest place. -/
def tokenSpan (theme : Theme) (pattern : Pattern) (kind : TokenKind) : Span :=
  { opening := pattern, closing := nothing, openStyle := some (theme.token kind) }

/-- The rules inside of a comment. -/
def commentMarkers (theme : Theme) : RuleSet :=
  { name := "comment", rules := [rule theme markerWord .marker] }

/-- The spans inside of a string, where a backslash escapes the next character. -/
def escapes (theme : Theme) : RuleSet :=
  { name := "escapes"
    spans := [{ opening := backslash, closing := escaped
                bodyStyle := some (theme.token .special), multiline := false }] }

/-- A comment from its opening to the end of the line. -/
def lineComment (theme : Theme) (opening : Pattern) (inner : Option Nat) : Span :=
  { opening := opening, closing := lineEnd, bodyStyle := some (theme.token .comment)
    inner := inner, multiline := false }

/-- A string that ends with its line if it has not been closed before. -/
def lineString (theme : Theme) (opening closing : Pattern) (inner : Option Nat) : Span :=
  { opening := opening, closing := closing, bodyStyle := some (theme.token .string)
    inner := inner, multiline := false }

/-- A string that may run over several lines. -/
def openString (theme : Theme) (opening closing : Pattern) (inner : Option Nat) : Span :=
  { opening := opening, closing := closing, bodyStyle := some (theme.token .string)
    inner := inner }

end Highlight.Languages
