import Highlight.Pattern.Parser

/-! # Patterns

A pattern is a text together with the way it is matched. A text that `Highlight.Pattern.parse` reads is
matched by its expression. Regular expressions have more than what is read here, such as classes by Unicode
property or blanks that mean nothing. A pattern written with these is matched by a search that comes from
elsewhere and is known by its laws alone, so that what is proved of all patterns holds of them as well.
-/

namespace Highlight

namespace Pattern

/-- A search for the first match, whatever finds it. A match starts no earlier than asked for and covers
whole characters of the text. A search that is begun again, no later than where the match starts, gives the
same answer. -/
structure Search where
  find? : List Char → Nat → Option Hit
  within {text : List Char} {start : Nat} {hit : Hit} :
    find? text start = some hit → start ≤ hit.start ∧ hit.Within text
  again {text : List Char} {earlier later : Nat} :
    earlier ≤ later → (∀ hit, find? text earlier = some hit → later ≤ hit.start) →
      find? text later = find? text earlier

/-- What matches a pattern. -/
inductive Matcher where
  | read (expr : Expr)
  | given (search : Search)

/-- The first match in `text` that starts at or after byte `start`. -/
def Matcher.find? : Matcher → List Char → Nat → Option Hit
  | read expr => expr.find?
  | given search => search.find?

end Pattern

/-- A text and what matches it. -/
structure Pattern where
  source : String
  matcher : Pattern.Matcher

namespace Pattern

/-- The expression of a pattern that has one. -/
def expr? (pattern : Pattern) : Option Expr :=
  match pattern.matcher with
  | .read expr => some expr
  | .given _ => none

/-- Reads a pattern. -/
def compile (source : String) : Except Fault Pattern :=
  (parse source.toList).map fun expr => ⟨source, .read expr⟩

/-- A pattern whose text is known to be valid, given also as its characters. -/
def literal (source : String) {chars : List Char} (_spelled : String.ofList chars = source)
    (valid : (parse chars).isOk = true) : Pattern where
  source := source
  matcher :=
    match result : parse chars with
    | .ok expr => .read expr
    | .error _ => absurd valid (by simp [result, Except.isOk, Except.toBool])

/-- A pattern whose text, known to be valid, is given in pieces. -/
def joined (pieces : List String)
    (valid : (parse (pieces.flatMap String.toList)).isOk = true) : Pattern :=
  literal (String.ofList (pieces.flatMap String.toList)) rfl valid

/-- The text, in pieces, of a pattern for any one of the words, standing by itself. -/
def wordPieces (words : List String) : List String :=
  "\\b(" :: words.intersperse "|" ++ [")\\b"]

/-- A pattern for any one of the words, standing by itself. -/
def anyWord (words : List String)
    (valid : (parse ((wordPieces words).flatMap String.toList)).isOk = true) : Pattern :=
  joined (wordPieces words) valid

/-- Reading the text of a literal pattern gives that pattern. -/
theorem compile_eq_literal (source : String) {chars : List Char}
    (spelled : String.ofList chars = source) (valid : (parse chars).isOk = true) :
    compile source = .ok (literal source spelled valid) := by
  subst spelled
  simp only [compile, literal, String.toList_ofList]
  split <;> rename_i result
  · rw [result]
    rfl
  · exact absurd valid (by simp [result, Except.isOk, Except.toBool])

/-- The first match in `text` that starts at or after byte `start`. -/
def find? (pattern : Pattern) (text : List Char) (start : Nat) : Option Hit :=
  pattern.matcher.find? text start

/-- The text of a pattern that also matches at the end of a text. -/
def orTextEnd (source : String) : String := "(?:" ++ source ++ ")|$"

end Pattern

end Highlight
