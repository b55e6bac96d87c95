import Highlight.Proofs.Pattern.Reach

/-! # Searching

A search gives the match that starts first, and which match that is does not depend on where the search
was begun: begun again from any place up to the start of the match it gives the same one. An expression
keeps these laws (`Highlight.Pattern.Expr.toSearch`), and so every pattern does, whatever matches it
(`Highlight.Pattern.find?_within`, `Highlight.Pattern.find?_eq_of_le`).
-/

namespace Highlight.Pattern

namespace Expr

variable {expr : Expr} {earlier later offset : Nat} {before : Option Char} {rest : List Char}
  {hit : Hit}

theorem start_of_matchAt? {cursor : Cursor} (found : expr.matchAt? cursor = some hit) :
    hit.start = cursor.offset := by
  obtain ⟨_, _, rfl⟩ := reaches_of_matchAt? found
  rfl

/-- A place that is not tried, or tried without a match, from one place on. -/
theorem untried_of_le {tried : Option Hit} (forward : earlier ≤ later)
    (absent : (if earlier ≤ offset then tried else none) = none) :
    (if later ≤ offset then tried else none) = none := by
  split
  · rename_i reached
    rwa [if_pos (Nat.le_trans forward reached)] at absent
  · rfl

/-- Where there is no match from a place on, there is none from a later place on. -/
theorem search_eq_none_of_le (forward : earlier ≤ later)
    (absent : expr.search earlier before offset rest = none) :
    expr.search later before offset rest = none := by
  induction rest generalizing before offset with
  | nil =>
      rw [search_nil] at absent ⊢
      exact untried_of_le forward absent
  | cons c rest ih =>
      rw [search_cons, Option.or_eq_none_iff] at absent ⊢
      exact ⟨untried_of_le forward absent.1, ih absent.2⟩

/-- The first match from a place on is also the first from any place up to its start. -/
theorem search_of_le (forward : earlier ≤ later)
    (found : expr.search earlier before offset rest = some hit) (reaches : later ≤ hit.start) :
    expr.search later before offset rest = some hit := by
  have here : ∀ cursor : Cursor,
      (if earlier ≤ cursor.offset then expr.matchAt? cursor else none) = some hit →
        (if later ≤ cursor.offset then expr.matchAt? cursor else none) = some hit := by
    intro cursor matched
    split at matched
    · have start := start_of_matchAt? matched
      rwa [if_pos (by omega)]
    · cases matched
  induction rest generalizing before offset with
  | nil =>
      rw [search_nil] at found ⊢
      exact here ⟨before, offset, []⟩ found
  | cons c rest ih =>
      rw [search_cons] at found ⊢
      rcases Option.or_eq_some_iff.mp found with matched | ⟨unmatched, further⟩
      · rw [here ⟨before, offset, c :: rest⟩ matched, Option.some_or]
      · rw [untried_of_le forward unmatched, Option.none_or]
        exact ih further

theorem find?_eq_of_le {text : List Char} (forward : earlier ≤ later)
    (reaches : ∀ hit, expr.find? text earlier = some hit → later ≤ hit.start) :
    expr.find? text later = expr.find? text earlier := by
  cases first : expr.find? text earlier with
  | none => exact search_eq_none_of_le forward first
  | some hit => exact search_of_le forward first (reaches hit first)

/-- An expression keeps the laws of a search. -/
def toSearch (expr : Expr) : Search where
  find? := expr.find?
  within := find?_within
  again := find?_eq_of_le

end Expr

/-- The search that a pattern stands for. -/
def search (pattern : Pattern) : Search :=
  match pattern.matcher with
  | .read expr => expr.toSearch
  | .given search => search

theorem find?_eq_search (pattern : Pattern) : pattern.find? = pattern.search.find? := by
  obtain ⟨source, matcher⟩ := pattern
  cases matcher <;> rfl

variable {pattern : Pattern} {text : List Char} {earlier later start : Nat} {hit : Hit}

/-- **Matches.** A match starts no earlier than asked for and covers whole characters, whether an expression
gives it or a search from elsewhere. -/
theorem find?_within (found : pattern.find? text start = some hit) :
    start ≤ hit.start ∧ hit.Within text := by
  rw [find?_eq_search] at found
  exact pattern.search.within found

/-- **Searching again.** A search that is begun again, no later than where the match starts, gives the same
answer. -/
theorem find?_eq_of_le (forward : earlier ≤ later)
    (reaches : ∀ hit, pattern.find? text earlier = some hit → later ≤ hit.start) :
    pattern.find? text later = pattern.find? text earlier := by
  rw [find?_eq_search] at reaches ⊢
  exact pattern.search.again forward reaches

/-- Where there is no match there is none further on. -/
theorem find?_eq_none_of_le (absent : pattern.find? text earlier = none)
    (forward : earlier ≤ later) : pattern.find? text later = none := by
  have same : pattern.find? text later = pattern.find? text earlier := by
    apply find?_eq_of_le forward
    intro hit found
    cases absent.symm.trans found
  rw [same, absent]

/-- A search that is begun again before the match gives the same match. -/
theorem find?_of_le (found : pattern.find? text earlier = some hit) (forward : earlier ≤ later)
    (reaches : later ≤ hit.start) : pattern.find? text later = some hit := by
  have same : pattern.find? text later = pattern.find? text earlier := by
    apply find?_eq_of_le forward
    intro other again
    cases found.symm.trans again
    exact reaches
  rw [same, found]

end Highlight.Pattern
