import Highlight.Proofs.Pattern.Read
import Highlight.Proofs.Pattern.Search

/-! # How much a match covers

A match covers at least as many characters as the least width of its expression says
(`Highlight.Pattern.Expr.ends_gain`). A pattern of positive width therefore never matches nothing
(`Highlight.Pattern.solid_of_isWide`).
-/

namespace Highlight.Pattern

/-- Whether the ends that `round` gives for a cursor all lie at least `width` bytes further on. -/
def Gains (width : Nat) (round : Cursor → List Cursor) : Prop :=
  ∀ cursor, ∀ next ∈ round cursor, cursor.offset + width ≤ next.offset

section Repetition

variable {round further : Cursor → List Cursor} {width : Nat}

theorem Forward.gains (forward : Forward round) : Gains 0 round :=
  fun cursor next member => (forward cursor next member).offset_le

/-- Each of the rounds gains the width. -/
theorem gain_of_mem_rounds (gains : Gains width round) {count : Nat} {cursors : List Cursor}
    {next : Cursor} (member : next ∈ rounds round count cursors) :
    ∃ cursor ∈ cursors, cursor.offset + count * width ≤ next.offset := by
  induction count generalizing cursors with
  | zero => exact ⟨next, member, by omega⟩
  | succ count ih =>
      obtain ⟨middle, inside, far⟩ := ih member
      obtain ⟨cursor, listed, near⟩ := List.mem_flatMap.mp (mem_of_mem_distinct inside)
      have gained := gains cursor middle near
      refine ⟨cursor, listed, ?_⟩
      rw [Nat.succ_mul]
      omega

/-- The rounds that are required and what follows them gain together. -/
theorem Gains.rounds (gains : Gains width round) {more : Nat} (beyond : Gains more further)
    (count : Nat) :
    Gains (count * width + more)
      fun cursor => distinct ((Pattern.rounds round count [cursor]).flatMap further) := by
  intro cursor next member
  obtain ⟨middle, inside, listed⟩ := List.mem_flatMap.mp (mem_of_mem_distinct member)
  obtain ⟨first, only, gained⟩ := gain_of_mem_rounds gains inside
  have far := beyond middle next listed
  rw [List.mem_singleton.mp only] at gained
  omega

/-- At least one round gains the width of one. -/
theorem Gains.atLeastOne (gains : Gains width round) (forward : Forward round) (greedy : Bool) :
    Gains width (atLeastOne round greedy) := by
  intro cursor next member
  obtain ⟨middle, near, listed⟩ := List.mem_flatMap.mp (mem_of_mem_distinct member)
  have gained := gains cursor middle near
  split at listed
  · rw [List.mem_singleton.mp listed]
    exact gained
  · have later := (forward.anyNumber greedy middle next listed).offset_le
    omega

end Repetition

/-- **Matching gains the least width.** Every end of an expression lies at least that many bytes behind
the place where it was tried. -/
theorem Expr.ends_gain (expr : Expr) : Gains expr.minWidth expr.ends := by
  induction expr with
  | empty => exact empty.ends_forward.gains
  | chars set =>
      rintro ⟨before, offset, rest⟩ next member
      cases rest with
      | nil => simp [ends] at member
      | cons c rest =>
          simp only [ends] at member
          split at member
          · rw [List.mem_singleton.mp member]
            exact Nat.add_le_add_left (Char.utf8Size_pos c) offset
          · cases member
  | anchor condition => exact (anchor condition).ends_forward.gains
  | seq first second near far =>
      intro cursor next member
      obtain ⟨middle, inside, listed⟩ := List.mem_flatMap.mp (mem_of_mem_distinct member)
      have gained := near cursor middle inside
      have further := far middle next listed
      simp only [minWidth]
      omega
  | alt first second left right =>
      intro cursor next member
      simp only [minWidth]
      rcases List.mem_append.mp (mem_of_mem_distinct member) with inside | inside
      · have gained := left cursor next inside
        omega
      · have gained := right cursor next inside
        omega
  | repeated body least most greedy gains =>
      have forward := body.ends_forward
      intro cursor next member
      cases most with
      | some most =>
          simp only [ends] at member
          have further := (forward.upTo greedy (most - least)).gains
          exact gains.rounds further least cursor next member
      | none =>
          cases least with
          | zero =>
              have reaches := (repeated body 0 none greedy).ends_forward cursor next member
              simpa [minWidth] using reaches.offset_le
          | succ least =>
              simp only [ends] at member
              have further := gains.atLeastOne forward greedy
              have gained := gains.rounds further least cursor next member
              rwa [minWidth, Nat.succ_mul]

/-- What a search gives is the match at some place of the text. -/
theorem Expr.exists_matchAt?_of_search {expr : Expr} {start : Nat} {before : Option Char}
    {offset : Nat} {rest : List Char} {hit : Hit}
    (found : expr.search start before offset rest = some hit) :
    ∃ cursor, expr.matchAt? cursor = some hit := by
  have here : ∀ cursor : Cursor,
      (if start ≤ cursor.offset then expr.matchAt? cursor else none) = some hit →
        ∃ cursor, expr.matchAt? cursor = some hit := by
    intro cursor matched
    split at matched
    · exact ⟨cursor, matched⟩
    · cases matched
  induction rest generalizing before offset with
  | nil =>
      rw [search_nil] at found
      exact here ⟨before, offset, []⟩ found
  | cons c rest ih =>
      rw [search_cons] at found
      rcases Option.or_eq_some_iff.mp found with matched | ⟨_, later⟩
      · exact here ⟨before, offset, c :: rest⟩ matched
      · exact ih later

/-- Whether no match of the pattern in the text is empty. -/
def SolidOn (text : List Char) (pattern : Pattern) : Prop :=
  ∀ start hit, pattern.find? text start = some hit → hit.isEmpty = false

/-- Only searches from places in the text count, since none from behind its end finds anything. -/
theorem solidOn_iff (text : List Char) (pattern : Pattern) :
    pattern.SolidOn text ↔
      ∀ start < Text.byteLength text + 1,
        (pattern.find? text start).all fun hit => !hit.isEmpty := by
  constructor
  · intro solid start _
    rw [Option.all_eq_true]
    intro hit found
    rw [solid start hit found]
    rfl
  · intro filled start hit found
    obtain ⟨late, within⟩ := find?_within found
    have inside := within.closes.le_byteLength
    have ordered := within.ordered
    have here := filled start (by omega)
    rw [found, Option.all_some] at here
    exact (Bool.not_eq_true' _).mp here

instance (text : List Char) (pattern : Pattern) : Decidable (pattern.SolidOn text) :=
  decidable_of_iff' _ (solidOn_iff text pattern)

/-- Whether no match of the pattern is empty. -/
def Solid (pattern : Pattern) : Prop :=
  ∀ text start hit, pattern.find? text start = some hit → hit.isEmpty = false

/-- Whether the pattern has an expression, and one of positive width. -/
def IsWide (pattern : Pattern) : Bool := pattern.expr?.any (0 < ·.minWidth)

/-- **Solid patterns.** An expression of positive width matches at least one byte. -/
theorem solid_of_isWide {pattern : Pattern} (wide : pattern.IsWide = true) : pattern.Solid := by
  intro text start hit found
  obtain ⟨expr, read, positive⟩ := (Option.any_eq_true _ _).mp wide
  rw [find?_eq_of_expr? read] at found
  obtain ⟨cursor, matched⟩ := Expr.exists_matchAt?_of_search found
  obtain ⟨closing, preferred, rfl⟩ := Option.map_eq_some_iff.mp matched
  have gained := expr.ends_gain cursor closing (List.mem_of_head? preferred)
  have width : 0 < expr.minWidth := of_decide_eq_true positive
  have moves : ¬ closing.offset ≤ cursor.offset := by omega
  exact decide_eq_false moves

end Highlight.Pattern
