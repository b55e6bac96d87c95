import Highlight.Pattern.Basic
import Highlight.Proofs.Text.Boundary

/-! # Where matches lie

Matching only ever moves forward in the text. Every end of an expression lies no earlier than the cursor
it was tried at (`Highlight.Pattern.Expr.ends_forward`), so a match that a search gives starts no earlier
than asked for and covers whole characters of the text (`Highlight.Pattern.Expr.find?_within`).
-/

namespace Highlight.Pattern

/-- Whether `next` lies no earlier than `cursor` in the same text. -/
def Cursor.Reaches (cursor next : Cursor) : Prop :=
  ∃ between, cursor.rest = between ++ next.rest ∧
    next.offset = cursor.offset + Text.byteLength between

theorem Cursor.Reaches.refl (cursor : Cursor) : cursor.Reaches cursor :=
  ⟨[], rfl, rfl⟩

/-- What is reached from a place that is reached is reached. -/
theorem Cursor.Reaches.trans {first second third : Cursor} (near : first.Reaches second)
    (far : second.Reaches third) : first.Reaches third := by
  obtain ⟨between, rest, offset⟩ := near
  obtain ⟨beyond, further, stop⟩ := far
  refine ⟨between ++ beyond, ?_, ?_⟩
  · rw [rest, further, List.append_assoc]
  · rw [stop, offset, Text.byteLength_append, Nat.add_assoc]

/-- One character further on. -/
theorem Cursor.Reaches.next (before : Option Char) (offset : Nat) (c : Char) (rest : List Char) :
    Reaches ⟨before, offset, c :: rest⟩ ⟨some c, offset + c.utf8Size, rest⟩ :=
  ⟨[c], rfl, by simp⟩

theorem Cursor.Reaches.offset_le {cursor next : Cursor} (reaches : cursor.Reaches next) :
    cursor.offset ≤ next.offset := by
  obtain ⟨between, _, offset⟩ := reaches
  omega

theorem Cursor.Reaches.isBoundary {text : List Char} {cursor : Cursor}
    (reaches : (Cursor.start text).Reaches cursor) : Text.IsBoundary text cursor.offset := by
  obtain ⟨between, rest, offset⟩ := reaches
  exact ⟨between, ⟨cursor.rest, rest.symm⟩, by simpa [start] using offset.symm⟩

/-- Whether the ends that `round` gives for a cursor all lie no earlier than the cursor. -/
def Forward (round : Cursor → List Cursor) : Prop :=
  ∀ cursor, ∀ next ∈ round cursor, cursor.Reaches next

/-- Leaving out repeated ends adds none. -/
theorem mem_of_mem_distinct {cursor : Cursor} {cursors : List Cursor}
    (member : cursor ∈ distinct cursors) : cursor ∈ cursors := by
  induction cursors with
  | nil => exact member
  | cons first rest ih =>
      rcases List.mem_cons.mp member with rfl | later
      · exact List.mem_cons_self
      · exact List.mem_cons_of_mem _ (ih (List.mem_filter.mp later).1)

/-- Whether all ends that `round` gives for a cursor with a property have the property too. -/
def Keeps (holds : Cursor → Prop) (round : Cursor → List Cursor) : Prop :=
  ∀ cursor, holds cursor → ∀ next ∈ round cursor, holds next

namespace Keeps

variable {holds : Cursor → Prop} {round further : Cursor → List Cursor} (keeps : Keeps holds round)

include keeps

/-- Any number of rounds keep the property. -/
theorem rounds {count : Nat} {cursors : List Cursor} (each : ∀ cursor ∈ cursors, holds cursor) :
    ∀ next ∈ rounds round count cursors, holds next := by
  induction count generalizing cursors with
  | zero => exact each
  | succ count ih =>
      refine ih fun middle inside => ?_
      obtain ⟨cursor, listed, near⟩ := List.mem_flatMap.mp (mem_of_mem_distinct inside)
      exact keeps cursor (each cursor listed) middle near

/-- So does any number up to a bound, by induction on the bound. -/
theorem upTo (greedy : Bool) (count : Nat) : Keeps holds (upTo round greedy count) := by
  induction count with
  | zero =>
      intro cursor known next member
      rwa [List.mem_singleton.mp member]
  | succ count ih =>
      intro cursor known next member
      have either : next ∈ (round cursor).flatMap (Pattern.upTo round greedy count) ∨
          next = cursor := by
        have listed := mem_of_mem_distinct member
        cases greedy <;> grind
      rcases either with further | rfl
      · obtain ⟨middle, near, far⟩ := List.mem_flatMap.mp further
        exact ih middle (keeps cursor known middle near) next far
      · exact known

/-- A traversal adds only cursors with the property. -/
theorem followAll (greedy : Bool) {bound : Nat} {collected : List Cursor} {cursor next : Cursor}
    (known : holds cursor) (member : next ∈ followAll round greedy bound collected cursor) :
    next ∈ collected ∨ holds next := by
  induction bound generalizing collected cursor with
  | zero =>
      simp only [Pattern.followAll] at member
      split at member
      · exact .inl member
      · rcases List.mem_cons.mp member with rfl | earlier
        · exact .inr known
        · exact .inl earlier
  | succ bound ih =>
      -- The fold over the next cursors keeps the same alternative at each of them.
      have folded : ∀ (nexts collected : List Cursor), (∀ c ∈ nexts, holds c) →
          next ∈ nexts.foldl (Pattern.followAll round greedy bound) collected →
            next ∈ collected ∨ holds next := by
        intro nexts
        induction nexts with
        | nil => exact fun _ _ listed => .inl listed
        | cons first rest again =>
            intro collected near listed
            rcases again _ (fun c inside => near c (List.mem_cons_of_mem _ inside)) listed with
              earlier | far
            · exact ih (near first List.mem_cons_self) earlier
            · exact .inr far
      have near : ∀ c ∈ (round cursor).filter (cursor.offset < ·.offset), holds c :=
        fun c inside => keeps cursor known c (List.mem_filter.mp inside).1
      simp only [Pattern.followAll] at member
      split at member
      · exact .inl member
      · split at member
        · rcases List.mem_cons.mp member with rfl | later
          · exact .inr known
          · exact folded _ _ near later
        · rcases folded _ _ near member with listed | far
          · rcases List.mem_cons.mp listed with rfl | earlier
            · exact .inr known
            · exact .inl earlier
          · exact .inr far

theorem anyNumber (greedy : Bool) : Keeps holds (anyNumber round greedy) := by
  intro cursor known next member
  rcases keeps.followAll greedy known (List.mem_reverse.mp member) with listed | far
  · cases listed
  · exact far

theorem atLeastOne (greedy : Bool) : Keeps holds (atLeastOne round greedy) := by
  intro cursor known next member
  obtain ⟨middle, near, listed⟩ := List.mem_flatMap.mp (mem_of_mem_distinct member)
  have first := keeps cursor known middle near
  split at listed
  · rwa [List.mem_singleton.mp listed]
  · exact keeps.anyNumber greedy middle first next listed

theorem anyNumberOfEmpty (greedy : Bool) : Keeps holds (anyNumberOfEmpty round greedy) := by
  intro cursor known next member
  have either : next ∈ Pattern.atLeastOne round greedy cursor ∨ next = cursor := by
    have listed := mem_of_mem_distinct member
    cases greedy <;> grind
  rcases either with some | rfl
  · exact keeps.atLeastOne greedy cursor known next some
  · exact known

/-- What follows the rounds that are required keeps the property as well. -/
theorem afterRounds (beyond : Keeps holds further) (count : Nat) :
    Keeps holds fun cursor => distinct ((Pattern.rounds round count [cursor]).flatMap further) := by
  intro cursor known next member
  obtain ⟨middle, inside, far⟩ := List.mem_flatMap.mp (mem_of_mem_distinct member)
  exact beyond middle (keeps.rounds (List.forall_mem_singleton.mpr known) middle inside) next far

omit keeps in
/-- **Repetition.** A repetition keeps what its body keeps. -/
theorem repeated {body : Expr} (keeps : Keeps holds body.ends) (least : Nat) (most : Option Nat)
    (greedy : Bool) : Keeps holds (Expr.repeated body least most greedy).ends := by
  intro cursor known next member
  cases most with
  | some most =>
      simp only [Expr.ends] at member
      exact keeps.afterRounds (keeps.upTo greedy (most - least)) least cursor known next member
  | none =>
      cases least with
      | zero =>
          simp only [Expr.ends] at member
          split at member
          · exact keeps.anyNumberOfEmpty greedy cursor known next member
          · exact keeps.anyNumber greedy cursor known next member
      | succ least =>
          simp only [Expr.ends] at member
          exact keeps.afterRounds (keeps.atLeastOne greedy) least cursor known next member

end Keeps

/-- Moving forward is to keep being no earlier than any given cursor. -/
theorem forward_iff {round : Cursor → List Cursor} :
    Forward round ↔ ∀ cursor : Cursor, Keeps cursor.Reaches round := by
  constructor
  · exact fun forward first cursor near next member => near.trans (forward cursor next member)
  · exact fun keeps cursor next member => keeps cursor cursor (.refl cursor) next member

section Repetition

variable {round : Cursor → List Cursor} (forward : Forward round)

include forward

theorem Forward.upTo (greedy : Bool) (count : Nat) : Forward (upTo round greedy count) :=
  forward_iff.mpr fun cursor => (forward_iff.mp forward cursor).upTo greedy count

theorem Forward.anyNumber (greedy : Bool) : Forward (anyNumber round greedy) :=
  forward_iff.mpr fun cursor => (forward_iff.mp forward cursor).anyNumber greedy

end Repetition

/-- **Matching moves forward.** Every end of an expression lies no earlier than where it was tried. -/
theorem Expr.ends_forward (expr : Expr) : Forward expr.ends := by
  induction expr with
  | empty =>
      intro cursor next member
      rw [List.mem_singleton.mp member]
      exact .refl cursor
  | chars set =>
      rintro ⟨before, offset, rest⟩ next member
      cases rest with
      | nil => simp [ends] at member
      | cons c rest =>
          simp only [ends] at member
          split at member
          · rw [List.mem_singleton.mp member]
            exact .next before offset c rest
          · cases member
  | anchor condition =>
      intro cursor next member
      simp only [ends] at member
      split at member
      · rw [List.mem_singleton.mp member]
        exact .refl cursor
      · cases member
  | seq first second near far =>
      intro cursor next member
      obtain ⟨middle, inside, listed⟩ := List.mem_flatMap.mp (mem_of_mem_distinct member)
      exact (near cursor middle inside).trans (far middle next listed)
  | alt first second left right =>
      intro cursor next member
      rcases List.mem_append.mp (mem_of_mem_distinct member) with inside | inside
      · exact left cursor next inside
      · exact right cursor next inside
  | repeated body least most greedy forward =>
      exact forward_iff.mpr fun cursor => (forward_iff.mp forward cursor).repeated least most greedy

theorem Hit.Within.of_prefix {text whole : List Char} {hit : Hit} (within : hit.Within text)
    (starts : text <+: whole) : hit.Within whole :=
  ⟨within.ordered, within.opens.of_prefix starts, within.closes.of_prefix starts⟩

theorem Hit.isEmpty_iff {hit : Hit} : hit.isEmpty = true ↔ hit.stop ≤ hit.start :=
  decide_eq_true_iff

theorem Hit.isEmpty_eq_false {start stop : Nat} (filled : start < stop) :
    Hit.isEmpty ⟨start, stop⟩ = false :=
  decide_eq_false (Nat.not_le_of_lt filled)

theorem Hit.lt_of_not_isEmpty {hit : Hit} (filled : ¬ hit.isEmpty = true) : hit.start < hit.stop :=
  Nat.lt_of_not_le (mt isEmpty_iff.mpr filled)

theorem Expr.reaches_of_matchAt? {expr : Expr} {cursor : Cursor} {hit : Hit}
    (found : expr.matchAt? cursor = some hit) :
    ∃ closing, cursor.Reaches closing ∧ hit = ⟨cursor.offset, closing.offset⟩ := by
  obtain ⟨closing, preferred, rfl⟩ := Option.map_eq_some_iff.mp found
  exact ⟨closing, expr.ends_forward cursor closing (List.mem_of_head? preferred), rfl⟩

theorem Expr.search_nil (expr : Expr) (start : Nat) (before : Option Char) (offset : Nat) :
    expr.search start before offset [] =
      if start ≤ offset then expr.matchAt? ⟨before, offset, []⟩ else none := by
  unfold search
  generalize (if start ≤ offset then expr.matchAt? ⟨before, offset, []⟩ else none) = here
  cases here <;> rfl

/-- Before a character it tries that place, and goes on behind the character. -/
theorem Expr.search_cons (expr : Expr) (start : Nat) (before : Option Char) (offset : Nat)
    (c : Char) (rest : List Char) :
    expr.search start before offset (c :: rest) =
      (if start ≤ offset then expr.matchAt? ⟨before, offset, c :: rest⟩ else none).or
        (expr.search start (some c) (offset + c.utf8Size) rest) := by
  rw [search.eq_def expr start before offset (c :: rest)]
  dsimp only
  generalize (if start ≤ offset then expr.matchAt? ⟨before, offset, c :: rest⟩ else none) = here
  cases here <;> rfl

/-- A search gives a match between two cursors that it reaches one after the other. -/
theorem Expr.reaches_of_search {expr : Expr} {start : Nat} {before : Option Char} {offset : Nat}
    {rest : List Char} {hit : Hit} (found : expr.search start before offset rest = some hit) :
    ∃ opening closing : Cursor, Cursor.Reaches ⟨before, offset, rest⟩ opening ∧
      opening.Reaches closing ∧ start ≤ opening.offset ∧ hit = ⟨opening.offset, closing.offset⟩ := by
  have here : ∀ cursor : Cursor,
      (if start ≤ cursor.offset then expr.matchAt? cursor else none) = some hit →
        ∃ closing, cursor.Reaches closing ∧ start ≤ cursor.offset ∧
          hit = ⟨cursor.offset, closing.offset⟩ := by
    intro cursor matched
    split at matched
    · rename_i late
      obtain ⟨closing, far, equal⟩ := reaches_of_matchAt? matched
      exact ⟨closing, far, late, equal⟩
    · cases matched
  induction rest generalizing before offset with
  | nil =>
      rw [search_nil] at found
      obtain ⟨closing, far, late, equal⟩ := here ⟨before, offset, []⟩ found
      exact ⟨_, closing, .refl _, far, late, equal⟩
  | cons c rest ih =>
      rw [search_cons] at found
      rcases Option.or_eq_some_iff.mp found with matched | ⟨_, later⟩
      · obtain ⟨closing, far, late, equal⟩ := here ⟨before, offset, c :: rest⟩ matched
        exact ⟨_, closing, .refl _, far, late, equal⟩
      · obtain ⟨opening, closing, near, far⟩ := ih later
        exact ⟨opening, closing, (Cursor.Reaches.next before offset c rest).trans near, far⟩

/-- **A search stays in its text.** A match starts no earlier than asked for and covers whole
characters. -/
theorem Expr.find?_within {expr : Expr} {text : List Char} {start : Nat} {hit : Hit}
    (found : expr.find? text start = some hit) : start ≤ hit.start ∧ hit.Within text := by
  obtain ⟨opening, closing, near, far, late, rfl⟩ := reaches_of_search found
  exact ⟨late, far.offset_le, near.isBoundary, (near.trans far).isBoundary⟩

end Highlight.Pattern
