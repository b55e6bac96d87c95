import Highlight.Pattern.CharSet

/-! # Pattern expressions

The syntax tree of a regular expression. Groups only bracket, and flags have been applied, so that
every leaf says by itself what it matches.
-/

namespace Highlight.Pattern

/-- A condition on a place in the text. -/
inductive Anchor where
  | textStart
  | textEnd
  | lineStart
  | lineEnd
  | wordBoundary
  | notWordBoundary
  | wordStart
  | wordEnd
  | wordStartHalf
  | wordEndHalf
  deriving DecidableEq

/-- A regular expression. In a repetition `most` is the greatest number of rounds, if there is one,
and a greedy repetition prefers more rounds to fewer. -/
inductive Expr where
  | empty
  | chars (set : CharSet)
  | anchor (condition : Anchor)
  | seq (first second : Expr)
  | alt (first second : Expr)
  | repeated (body : Expr) (least : Nat) (most : Option Nat) (greedy : Bool)
  deriving DecidableEq

namespace Expr

/-- The expressions one after another. -/
def sequence : List Expr → Expr
  | [] => empty
  | [expr] => expr
  | expr :: rest => seq expr (sequence rest)

/-- Any of the expressions, earlier ones preferred. -/
def choice : List Expr → Expr
  | [] => empty
  | [expr] => expr
  | expr :: rest => alt expr (choice rest)

/-- The least number of characters in a match. -/
def minWidth : Expr → Nat
  | empty => 0
  | chars _ => 1
  | anchor _ => 0
  | seq first second => first.minWidth + second.minWidth
  | alt first second => min first.minWidth second.minWidth
  | repeated body least _ _ => least * body.minWidth

end Expr

end Highlight.Pattern
