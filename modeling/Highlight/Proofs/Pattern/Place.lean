import Highlight.Proofs.Pattern.Width

/-! # Matches at a place

A search that is begun behind a front of a text gives the match at that very place, if there is one
(`Highlight.Pattern.find?_of_here?`). If there is none, the search may as well be begun behind the next
character (`Highlight.Pattern.find?_of_here?_eq_none`).
-/

namespace Highlight.Pattern

/-- The place behind a front of a text. -/
def Cursor.behind (front rest : List Char) : Cursor :=
  ⟨front.getLast?, Text.byteLength front, rest⟩

/-- The match that starts behind a front of a text: the first one from there on, unless that one starts
further on. -/
def here? (pattern : Pattern) (front rest : List Char) : Option Hit :=
  (pattern.find? (front ++ rest) (Text.byteLength front)).filter (·.start = Text.byteLength front)

theorem getLast?_cons_eq_or (c : Char) (text : List Char) :
    (c :: text).getLast? = text.getLast?.or (some c) := by
  rw [List.getLast?_cons]
  cases text.getLast? <;> rfl

namespace Expr

variable {expr : Expr} {before : Option Char} {offset start other : Nat} {front rest : List Char}

/-- A search does not try the places before the one at which it is begun. -/
theorem search_append (front rest : List Char) (before : Option Char) (offset : Nat) :
    expr.search (offset + Text.byteLength front) before offset (front ++ rest) =
      expr.search (offset + Text.byteLength front) (front.getLast?.or before)
        (offset + Text.byteLength front) rest := by
  induction front generalizing before offset with
  | nil => rfl
  | cons c front ih =>
      have positive := c.utf8Size_pos
      have ahead : ¬ offset + Text.byteLength (c :: front) ≤ offset := by
        rw [Text.byteLength_cons]
        omega
      have same : offset + Text.byteLength (c :: front) =
          offset + c.utf8Size + Text.byteLength front := by
        rw [Text.byteLength_cons, Nat.add_assoc]
      have last : (c :: front).getLast?.or before = front.getLast?.or (some c) := by
        rw [getLast?_cons_eq_or, Option.or_assoc, Option.some_or]
      rw [List.cons_append, search_cons, if_neg ahead, Option.none_or, same, ih, last]

theorem find?_behind (expr : Expr) (front rest : List Char) :
    expr.find? (front ++ rest) (Text.byteLength front) =
      expr.search (Text.byteLength front) front.getLast? (Text.byteLength front) rest := by
  have skipped := expr.search_append front rest none 0
  rwa [Nat.zero_add, Option.or_none] at skipped

/-- A search tries the place at which it is begun first. -/
theorem find?_of_matchAt? {hit : Hit} (matched : expr.matchAt? (.behind front rest) = some hit) :
    expr.find? (front ++ rest) (Text.byteLength front) = some hit := by
  have tried : (if Text.byteLength front ≤ Text.byteLength front then
      expr.matchAt? ⟨front.getLast?, Text.byteLength front, rest⟩ else none) = some hit :=
    (if_pos (Nat.le_refl _)).trans matched
  rw [find?_behind]
  cases rest with
  | nil => rw [search_nil, tried]
  | cons c rest => rw [search_cons, tried, Option.some_or]

/-- Where there is no match at that place, it finds one further on. -/
theorem lt_start_of_matchAt?_eq_none (absent : expr.matchAt? (.behind front rest) = none) {hit : Hit}
    (found : expr.find? (front ++ rest) (Text.byteLength front) = some hit) :
    Text.byteLength front < hit.start := by
  have untried : (if Text.byteLength front ≤ Text.byteLength front then
      expr.matchAt? ⟨front.getLast?, Text.byteLength front, rest⟩ else none) = none :=
    (if_pos (Nat.le_refl _)).trans absent
  rw [find?_behind] at found
  cases rest with
  | nil =>
      rw [search_nil, untried] at found
      cases found
  | cons c rest =>
      have positive := c.utf8Size_pos
      rw [search_cons, untried, Option.none_or] at found
      obtain ⟨opening, _, near, _, _, rfl⟩ := reaches_of_search found
      have later := near.offset_le
      dsimp only at later ⊢
      omega

end Expr

variable {pattern : Pattern} {expr : Expr} {front rest : List Char} {c : Char} {hit : Hit}

/-- The match of an expression at a place is its preferred one there. -/
theorem here?_eq_matchAt? (read : pattern.expr? = some expr) (front rest : List Char) :
    pattern.here? front rest = expr.matchAt? (.behind front rest) := by
  rw [here?, find?_eq_of_expr? read]
  cases matched : expr.matchAt? (.behind front rest) with
  | some hit =>
      have there : hit.start = Text.byteLength front := Expr.start_of_matchAt? matched
      rw [Expr.find?_of_matchAt? matched]
      exact Option.filter_eq_some_iff.mpr ⟨rfl, decide_eq_true there⟩
  | none =>
      apply Option.filter_eq_none_iff.mpr
      intro hit found
      have further := Expr.lt_start_of_matchAt?_eq_none matched found
      exact mt of_decide_eq_true (Nat.ne_of_gt further)

theorem start_of_here? (matched : pattern.here? front rest = some hit) :
    hit.start = Text.byteLength front :=
  of_decide_eq_true (Option.filter_eq_some_iff.mp matched).2

theorem find?_of_here? (matched : pattern.here? front rest = some hit) :
    pattern.find? (front ++ rest) (Text.byteLength front) = some hit :=
  (Option.filter_eq_some_iff.mp matched).1

/-- Where no match starts at a place, the first one from there on starts further on. -/
theorem lt_start_of_here?_eq_none (absent : pattern.here? front rest = none)
    (found : pattern.find? (front ++ rest) (Text.byteLength front) = some hit) :
    Text.byteLength front < hit.start := by
  have late := (find?_within found).1
  have apart : hit.start ≠ Text.byteLength front := by
    intro there
    exact Option.filter_eq_none_iff.mp absent hit found (decide_eq_true there)
  omega

/-- Where no match starts at a place, the search may as well be begun behind the next character, for a match
starts between two characters. -/
theorem find?_of_here?_eq_none (absent : pattern.here? front (c :: rest) = none) :
    pattern.find? (front ++ c :: rest) (Text.byteLength front) =
      pattern.find? (front ++ c :: rest) (Text.byteLength front + c.utf8Size) := by
  refine (find?_eq_of_le (Nat.le_add_right _ _) fun hit found => ?_).symm
  have further := lt_start_of_here?_eq_none absent found
  obtain ⟨middle, last, same, length⟩ :=
    (find?_within found).2.opens.split (Nat.le_of_lt further)
  cases middle with
  | nil =>
      rw [List.append_nil] at length
      omega
  | cons other middle =>
      obtain ⟨rfl, -⟩ := List.cons.inj same
      rw [← length, Text.byteLength_append, Text.byteLength_cons]
      omega

/-- At the end of a text there is nothing for a match to cover. -/
theorem SolidOn.find?_byteLength {text : List Char} (solid : pattern.SolidOn text) :
    pattern.find? text (Text.byteLength text) = none := by
  cases found : pattern.find? text (Text.byteLength text) with
  | none => rfl
  | some hit =>
      obtain ⟨late, within⟩ := find?_within found
      have moves := Hit.lt_of_not_isEmpty (Bool.eq_false_iff.mp (solid _ _ found))
      have inside := within.closes.le_byteLength
      omega

end Highlight.Pattern
