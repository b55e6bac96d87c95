import Highlight.Proofs.Pattern.Place

/-! # The preferred end

What a match begins with narrows down where it can be: an expression has no end before a character that it
does not take (`Highlight.Pattern.Expr.ends_eq_nil`). Where it has ends, the preferred one is found part by
part; a greedy run of characters goes as far as it can (`Highlight.Pattern.Expr.Prefers.run`).
-/

namespace Highlight.Pattern

namespace Expr

/-- Whether a match of the expression may begin with the character. -/
def takes (c : Char) : Expr → Bool
  | empty => false
  | chars set => set.contains c
  | anchor _ => false
  | seq first second => first.takes c || (first.minWidth == 0 && second.takes c)
  | alt first second => first.takes c || second.takes c
  | repeated body _ _ _ => body.takes c

variable {expr first second : Expr} {set : CharSet} {cursor middle stop : Cursor} {c : Char}

/-- Before a character that it does not take, an expression stays where it is tried. -/
theorem eq_of_mem_ends (untaken : expr.takes c = false) (before : cursor.rest.head? = some c) :
    ∀ next ∈ expr.ends cursor, next = cursor := by
  induction expr with
  | empty => exact fun next member => List.mem_singleton.mp member
  | chars set =>
      obtain ⟨_, _, rest⟩ := cursor
      intro next member
      cases rest with
      | nil => cases before
      | cons d rest =>
          cases before
          rw [takes] at untaken
          simp [ends, untaken] at member
  | anchor condition =>
      intro next member
      rw [ends] at member
      split at member
      · exact List.mem_singleton.mp member
      · cases member
  | seq first second near far =>
      intro next member
      obtain ⟨middle, inside, listed⟩ := List.mem_flatMap.mp (mem_of_mem_distinct member)
      rw [takes, Bool.or_eq_false_iff, Bool.and_eq_false_iff] at untaken
      obtain rfl := near untaken.1 middle inside
      rcases untaken.2 with wide | stays
      · -- A first part of positive width has no end at all.
        have gained := first.ends_gain middle middle inside
        have positive : first.minWidth ≠ 0 := by simpa using wide
        omega
      · exact far stays next listed
  | alt first second left right =>
      intro next member
      rw [takes, Bool.or_eq_false_iff] at untaken
      rcases List.mem_append.mp (mem_of_mem_distinct member) with inside | inside
      · exact left untaken.1 next inside
      · exact right untaken.2 next inside
  | repeated body least most greedy ih =>
      have keeps : Keeps (· = cursor) body.ends := by
        rintro _ rfl
        exact ih untaken
      exact keeps.repeated least most greedy cursor rfl

/-- **Characters that are not taken.** An expression of positive width has no end before a character that it
does not take. -/
theorem ends_eq_nil (untaken : expr.takes c = false) (positive : 0 < expr.minWidth)
    (before : cursor.rest.head? = some c) : expr.ends cursor = [] := by
  refine List.eq_nil_iff_forall_not_mem.mpr fun next member => ?_
  have gained := expr.ends_gain cursor next member
  rw [eq_of_mem_ends untaken before next member] at gained
  omega

/-- Whether the expression is of positive width and takes none of the characters. -/
def avoids (avoided : List Char) (expr : Expr) : Bool :=
  0 < expr.minWidth && avoided.all fun c => !expr.takes c

theorem ends_eq_nil_of_avoids {avoided : List Char} (avoids : expr.avoids avoided = true)
    (listed : c ∈ avoided) (before : cursor.rest.head? = some c) : expr.ends cursor = [] := by
  obtain ⟨positive, untaken⟩ := Bool.and_eq_true_iff.mp avoids
  have absent := List.all_eq_true.mp untaken c listed
  exact ends_eq_nil (by simpa using absent) (of_decide_eq_true positive) before

theorem ends_chars (taken : set.contains c = true) {before : Option Char} {offset : Nat}
    {rest : List Char} :
    (chars set).ends ⟨before, offset, c :: rest⟩ = [⟨some c, offset + c.utf8Size, rest⟩] := by
  simp [ends, taken]

/-! ## Preferences -/

theorem head?_distinct (cursors : List Cursor) : (distinct cursors).head? = cursors.head? := by
  cases cursors <;> rfl

/-- Whether `stop` is the preferred end of the expression from a cursor. -/
def Prefers (expr : Expr) (cursor stop : Cursor) : Prop := (expr.ends cursor).head? = some stop

namespace Prefers

theorem chars {before : Option Char} {offset : Nat} {rest : List Char} (taken : set.contains c = true) :
    (chars set).Prefers ⟨before, offset, c :: rest⟩ ⟨some c, offset + c.utf8Size, rest⟩ := by
  rw [Prefers, ends_chars taken]
  rfl

theorem seq (near : first.Prefers cursor middle) (far : second.Prefers middle stop) :
    (seq first second).Prefers cursor stop := by
  obtain ⟨others, ends⟩ := List.head?_eq_some_iff.mp near
  obtain ⟨further, ending⟩ := List.head?_eq_some_iff.mp far
  rw [Prefers, Expr.ends, head?_distinct, ends, List.flatMap_cons, ending]
  rfl

theorem left (near : first.Prefers cursor stop) : (alt first second).Prefers cursor stop := by
  obtain ⟨others, ends⟩ := List.head?_eq_some_iff.mp near
  rw [Prefers, Expr.ends, head?_distinct, ends]
  rfl

theorem right (absent : first.ends cursor = []) (far : second.Prefers cursor stop) :
    (alt first second).Prefers cursor stop := by
  rw [Prefers, Expr.ends, head?_distinct, absent]
  exact far

/-- A traversal of a run of characters goes to its end last. -/
theorem getLast?_followAll {run rest : List Char} (each : ∀ d ∈ run, set.contains d = true)
    (ended : ∀ d, rest.head? = some d → set.contains d = false) {bound : Nat}
    (within : run.length ≤ bound) (before : Option Char) (offset : Nat) :
    (followAll (Expr.chars set).ends true bound [] ⟨before, offset, run ++ rest⟩).getLast? =
      some ⟨run.getLast?.or before, offset + Text.byteLength run, rest⟩ := by
  induction run generalizing before offset bound with
  | nil =>
      have none : (Expr.chars set).ends ⟨before, offset, rest⟩ = [] := by
        cases rest with
        | nil => rfl
        | cons d rest => simp [ends, ended d rfl]
      cases bound with
      | zero => simp [followAll]
      | succ bound => simp [followAll, none]
  | cons d run ih =>
      obtain ⟨taken, later⟩ := List.forall_mem_cons.mp each
      cases bound with
      | zero => simp at within
      | succ bound =>
          have positive := d.utf8Size_pos
          have follows : followAll (Expr.chars set).ends true (bound + 1) []
                ⟨before, offset, d :: run ++ rest⟩ =
              ⟨before, offset, d :: run ++ rest⟩ ::
                followAll (Expr.chars set).ends true bound []
                  ⟨some d, offset + d.utf8Size, run ++ rest⟩ := by
            simp [followAll, ends_chars taken, positive]
          rw [follows, List.getLast?_cons, ih later (Nat.le_of_succ_le_succ within),
            getLast?_cons_eq_or, Option.or_assoc, Option.some_or, Text.byteLength_cons, Nat.add_assoc]
          rfl

/-- **Runs.** A greedy repetition of characters prefers to go on up to a character that is not one of
them. -/
theorem run {run rest : List Char} (filled : run ≠ []) (each : ∀ d ∈ run, set.contains d = true)
    (ended : ∀ d, rest.head? = some d → set.contains d = false) (before : Option Char) (offset : Nat) :
    (repeated (Expr.chars set) 1 none true).Prefers ⟨before, offset, run ++ rest⟩
      ⟨run.getLast?, offset + Text.byteLength run, rest⟩ := by
  cases run with
  | nil => exact absurd rfl filled
  | cons d run =>
      obtain ⟨taken, later⟩ := List.forall_mem_cons.mp each
      have moves : ¬ offset + d.utf8Size = offset := by
        have positive := d.utf8Size_pos
        omega
      have within : run.length ≤ (run ++ rest).length := by simp
      have last := getLast?_followAll later ended within (some d) (offset + d.utf8Size)
      rw [Prefers, ends, head?_distinct, rounds, List.flatMap_singleton, atLeastOne, head?_distinct,
        List.cons_append, ends_chars taken, List.flatMap_singleton, if_neg moves, anyNumber,
        List.head?_reverse, last, getLast?_cons_eq_or, Text.byteLength_cons, Nat.add_assoc]

end Prefers

theorem matchAt?_of_prefers (prefers : expr.Prefers cursor stop) :
    expr.matchAt? cursor = some ⟨cursor.offset, stop.offset⟩ := by
  rw [matchAt?, prefers]
  rfl

end Expr

/-- Whether the pattern has an expression that avoids the characters. -/
def avoids (pattern : Pattern) (avoided : List Char) : Bool := pattern.expr?.any (·.avoids avoided)

/-- A pattern does not match before a character that it avoids. -/
theorem here?_eq_none_of_avoids {pattern : Pattern} {avoided : List Char} {c : Char}
    (avoids : pattern.avoids avoided = true) (listed : c ∈ avoided) (front rest : List Char) :
    pattern.here? front (c :: rest) = none := by
  obtain ⟨expr, read, apart⟩ := (Option.any_eq_true _ _).mp avoids
  rw [here?_eq_matchAt? read, Expr.matchAt?, Expr.ends_eq_nil_of_avoids apart listed rfl]
  rfl

end Highlight.Pattern
