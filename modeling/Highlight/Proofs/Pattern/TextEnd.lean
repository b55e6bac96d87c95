import Highlight.Proofs.Pattern.Reach
import Highlight.Proofs.Pattern.Tokens

/-! # Patterns that match at the end of a text

However a pattern is written, with the end of the text as a further alternative it has a match from every
place of a text on, be it the empty one at its end (`Highlight.Pattern.closes_of_compile`).
-/

namespace Highlight.Pattern

/-- Whether the pattern has a match from every place of a text on. -/
def Closes (pattern : Pattern) : Prop :=
  ∀ text start, start ≤ Text.byteLength text → ∃ hit, pattern.find? text start = some hit

theorem distinct_ne_nil {cursors : List Cursor} (some : cursors ≠ []) : distinct cursors ≠ [] := by
  cases cursors with
  | nil => exact absurd rfl some
  | cons cursor rest => exact List.cons_ne_nil _ _

namespace Expr

/-- A choice matches wherever its last alternative does. -/
theorem ends_choice_ne_nil {last : Expr} {cursor : Cursor} (matched : last.ends cursor ≠ [])
    (earlier : List Expr) : (choice (earlier ++ [last])).ends cursor ≠ [] := by
  induction earlier with
  | nil => exact matched
  | cons expr rest ih =>
      obtain ⟨next, others, split⟩ := List.exists_cons_of_ne_nil
        (show rest ++ [last] ≠ [] from List.append_ne_nil_of_right_ne_nil rest (List.cons_ne_nil _ _))
      rw [List.cons_append, split, choice, ends]
      · refine distinct_ne_nil (List.append_ne_nil_of_right_ne_nil _ ?_)
        rw [← split]
        exact ih
      · simp

/-- A search that has come to the end of the text finds what matches there. -/
theorem exists_search {expr : Expr} (ends : ∀ before offset, expr.ends ⟨before, offset, []⟩ ≠ [])
    {start offset : Nat} {rest : List Char} (inside : start ≤ offset + Text.byteLength rest)
    (before : Option Char) : ∃ hit, expr.search start before offset rest = some hit := by
  induction rest generalizing before offset with
  | nil =>
      obtain ⟨closing, others, found⟩ := List.exists_cons_of_ne_nil (ends before offset)
      refine ⟨⟨offset, closing.offset⟩, ?_⟩
      rw [search_nil, if_pos (show start ≤ offset from inside), matchAt?, found]
      rfl
  | cons c rest ih =>
      rw [Text.byteLength, ← Nat.add_assoc] at inside
      obtain ⟨hit, found⟩ := ih inside (some c)
      rw [search_cons, found]
      cases (if start ≤ offset then expr.matchAt? ⟨before, offset, c :: rest⟩ else none) with
      | none => exact ⟨hit, rfl⟩
      | some earlier => exact ⟨earlier, rfl⟩

end Expr

/-- What is read up to a closing parenthesis, a bar and a dollar sign is an alternative whose last branch is
an end of the text or of the line. -/
theorem exists_parse_eq {text : List Char} {expr : Expr} (closes : textEndSuffix <:+ text)
    (read : parse text = .ok expr) :
    ∃ (earlier : List Expr) (multiLine : Bool),
      expr = .choice (earlier ++ [.anchor (if multiLine then .lineEnd else .textEnd)]) := by
  obtain ⟨all, tokenized, read⟩ := exists_ok_of_bind read
  obtain ⟨earlier, rfl⟩ := exists_tokens_eq (Nat.le_refl _) closes tokenized
  obtain ⟨reader, folded, read⟩ := exists_ok_of_bind read
  rw [List.foldlM_append] at folded
  obtain ⟨middle, _, folded⟩ := exists_ok_of_bind folded
  split at read
  · cases read
    cases folded
    refine ⟨(middle.group.branch :: middle.group.branches).reverse, middle.flags.multiLine, ?_⟩
    simp [Group.expr, Reader.push, Group.push, Group.finishBranch, Group.branch, Expr.sequence]
  · cases read

/-- **The end of the text.** A pattern that is made to match at the end of a text always finds a match. -/
theorem closes_of_compile {source : String} {pattern : Pattern}
    (compiled : compile (orTextEnd source) = .ok pattern) : pattern.Closes := by
  obtain ⟨expr, parsed, rfl⟩ := exists_ok_of_map compiled
  have closes : textEndSuffix <:+ (orTextEnd source).toList := by
    rw [orTextEnd, String.toList_append]
    exact List.suffix_append _ _
  obtain ⟨earlier, multiLine, rfl⟩ := exists_parse_eq closes parsed
  intro text start inside
  refine Expr.exists_search (fun before offset => Expr.ends_choice_ne_nil ?_ earlier) ?_ none
  · cases multiLine <;> exact List.cons_ne_nil _ _
  · rwa [Nat.zero_add]

end Highlight.Pattern
