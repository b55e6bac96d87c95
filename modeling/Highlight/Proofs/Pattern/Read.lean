import Highlight.Pattern.Basic

/-! # Patterns with an expression

A pattern whose text is read is matched by the expression it is read as
(`Highlight.Pattern.find?_eq_of_expr?`). Such patterns can be compared, which cannot be done with searches
(`Highlight.Pattern.mem_of_isAmong`).
-/

namespace Highlight.Pattern

variable {pattern other : Pattern} {expr : Expr}

/-- A pattern is given by its text and its expression. -/
theorem eq_of_expr? (read : pattern.expr? = some expr) : pattern = ⟨pattern.source, .read expr⟩ := by
  obtain ⟨source, matcher⟩ := pattern
  cases matcher with
  | read same =>
      cases read
      rfl
  | given search => cases read

/-- A pattern that has an expression is matched by it. -/
theorem find?_eq_of_expr? (read : pattern.expr? = some expr) : pattern.find? = expr.find? := by
  rw [eq_of_expr? read]
  rfl

/-- Whether two patterns have the same text and the same expression. -/
def isSame (pattern other : Pattern) : Bool :=
  pattern.source == other.source && pattern.expr?.any fun expr => other.expr? == some expr

/-- Patterns with the same text and the same expression are the same. -/
theorem eq_of_isSame (same : pattern.isSame other = true) : pattern = other := by
  obtain ⟨source, matched⟩ := Bool.and_eq_true_iff.mp same
  obtain ⟨expr, read, reads⟩ := (Option.any_eq_true _ _).mp matched
  calc
    pattern = ⟨pattern.source, .read expr⟩ := eq_of_expr? read
    _ = ⟨other.source, .read expr⟩ := by rw [eq_of_beq source]
    _ = other := (eq_of_expr? (eq_of_beq reads)).symm

/-- Whether one of the patterns has the same text and the same expression. -/
def isAmong (pattern : Pattern) (patterns : List Pattern) : Bool := patterns.any pattern.isSame

theorem mem_of_isAmong {patterns : List Pattern} (among : pattern.isAmong patterns = true) :
    pattern ∈ patterns := by
  obtain ⟨other, listed, same⟩ := List.any_eq_true.mp among
  rwa [eq_of_isSame same]

end Highlight.Pattern
