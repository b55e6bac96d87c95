import Highlight.Proofs.Languages.LeftOpen
import Highlight.Proofs.Scan.Here

/-! # Block comments of Rust

How deep the comments of Rust are nested at the end of a line is found by counting their delimiters from the
left (`Highlight.Languages.Rust.openComments?`). A line that is scanned inside of comments is left inside of
as many as are counted (`Highlight.Languages.Rust.scanLine_comments`).
-/

namespace Highlight

namespace Pattern

section Pair

variable {pattern : Pattern} {first second : Char}
  (pair : pattern.expr? = some (.seq (.chars (.single first)) (.chars (.single second))))
include pair

/-- A pattern for two characters matches where they stand. -/
theorem here?_pair (front rest : List Char) :
    pattern.here? front (first :: second :: rest) =
      some ⟨Text.byteLength front, Text.byteLength front + first.utf8Size + second.utf8Size⟩ := by
  simp [here?_eq_matchAt? pair, Expr.matchAt?, Cursor.behind, Expr.ends, distinct]

/-- A pattern for two characters matches nowhere else. -/
theorem here?_pair_eq_none {front rest : List Char}
    (other : ∀ more, rest ≠ first :: second :: more) : pattern.here? front rest = none := by
  rw [here?_eq_matchAt? pair]
  cases rest with
  | nil => simp [Expr.matchAt?, Cursor.behind, Expr.ends, distinct]
  | cons c rest =>
      by_cases same : c = first
      · cases rest with
        | nil => simp [Expr.matchAt?, Cursor.behind, Expr.ends, distinct, same]
        | cons d rest =>
            have apart : d ≠ second := by
              rintro rfl
              exact other rest (by rw [same])
            simp [Expr.matchAt?, Cursor.behind, Expr.ends, distinct, same, apart]
      · simp [Expr.matchAt?, Cursor.behind, Expr.ends, distinct, same]

end Pair

end Pattern

namespace Languages.Rust

open Scan Grammar

variable {theme : Theme}

/-- The number of comments that are open behind a text that begins inside of some. An opening delimiter adds
one and a closing one takes one away, each with both of its characters. There is no such number where code
follows behind the last comment. -/
def openComments? : Nat → List Char → Option Nat
  | depth, [] => some depth
  | 0, _ :: _ => none
  | depth + 1, '/' :: '*' :: rest => openComments? (depth + 2) rest
  | depth + 1, '*' :: '/' :: rest => openComments? depth rest
  | depth + 1, _ :: rest => openComments? (depth + 1) rest

/-- The stack inside of as many block comments. -/
def insideComments : Nat → SpanStack
  | 0 => []
  | depth + 1 => comments depth

theorem expr?_commentOpening :
    commentOpening.expr? = some (.seq (.chars (.single '/')) (.chars (.single '*'))) := rfl

theorem expr?_commentClosing :
    commentClosing.expr? = some (.seq (.chars (.single '*')) (.chars (.single '/'))) := rfl

/-- Inside of comments the innermost span is a comment. -/
theorem exists_top?_comments (depth : Nat) :
    ∃ top, (comments depth).top? = some top ∧ (grammar theme).span? top = some (blockComment theme) := by
  cases depth with
  | zero => exact ⟨⟨0, 0⟩, rfl, rfl⟩
  | succ depth => exact ⟨⟨3, 0⟩, rfl, rfl⟩

theorem activeId_comments (depth : Nat) : (grammar theme).activeId (comments depth) = some 3 := by
  cases depth <;> rfl

theorem active_comments (depth : Nat) : (grammar theme).active (comments depth) = commentBody theme := by
  rw [Grammar.active, activeId_comments]
  rfl

theorem solid (theme : Theme) : (grammar theme).Solid := solid_of_mem_all List.mem_cons_self

theorem commentClosing_solid : commentClosing.Solid := Pattern.solid_of_isWide (by decide)

/-- A walk behind the front of a line, inside of as many comments, that does not paint. -/
structure Inside (front : List Char) (depth : Nat) (walk : DirectWalk) : Prop where
  there : walk.position = Text.byteLength front
  stack : walk.stack = insideComments depth
  unpainted : walk.painter = none
  opened : ∀ place ∈ walk.openedAt, place ≤ walk.position

namespace Inside

variable {front rest : List Char} {depth : Nat} {walk : DirectWalk}

section Comment

variable (inside : Inside front (depth + 1) walk)
include inside

theorem activeId_eq : (grammar theme).activeId walk.stack = some 3 := by
  rw [inside.stack]
  exact activeId_comments depth

theorem spans_eq : ((grammar theme).active walk.stack).spans = [blockComment theme] := by
  rw [inside.stack, insideComments, active_comments]
  rfl

theorem exists_top? (theme : Theme) :
    ∃ top, walk.stack.top? = some top ∧ (grammar theme).span? top = some (blockComment theme) := by
  rw [inside.stack]
  exact exists_top?_comments depth

/-- An opening delimiter adds a comment. -/
theorem opening :
    ∃ next, walk.complete (grammar theme) (front ++ '/' :: '*' :: rest) =
        next.complete (grammar theme) (front ++ '/' :: '*' :: rest) ∧
      Inside (front ++ ['/', '*']) (depth + 2) next := by
  have listed : ((grammar theme).active walk.stack).spans = [] ++ blockComment theme :: [] :=
    inside.spans_eq
  have filled : Pattern.Hit.isEmpty ⟨Text.byteLength front,
      Text.byteLength front + '/'.utf8Size + '*'.utf8Size⟩ = false := by
    have positive := '/'.utf8Size_pos
    exact Pattern.Hit.isEmpty_eq_false (by omega)
  have opened := DirectWalk.step_opening inside.there inside.activeId_eq listed
    (List.forall_mem_nil _) (Pattern.here?_pair expr?_commentOpening front rest) filled
  refine ⟨_, DirectWalk.complete_of_step opened, ?_, ?_, ?_, ?_⟩
  · simp [Nat.add_assoc]
  · rw [inside.stack]
    rfl
  · rw [inside.unpainted]
    rfl
  · intro place listed
    have before : place ≤ walk.position := by
      rcases List.mem_cons.mp listed with rfl | earlier
      · exact Nat.le_refl _
      · exact inside.opened place earlier
    have there := inside.there
    dsimp only
    omega

/-- A closing delimiter takes one away. -/
theorem closing :
    ∃ next, walk.complete (grammar theme) (front ++ '*' :: '/' :: rest) =
        next.complete (grammar theme) (front ++ '*' :: '/' :: rest) ∧
      Inside (front ++ ['*', '/']) depth next := by
  have absent : ∀ other ∈ ((grammar theme).active walk.stack).spans,
      other.opening.here? front ('*' :: '/' :: rest) = none := by
    rw [inside.spans_eq]
    refine List.forall_mem_singleton.mpr (Pattern.here?_pair_eq_none expr?_commentOpening ?_)
    simp
  have there := inside.there
  have apart : walk.openedAt.head? ≠
      some (Text.byteLength front + '*'.utf8Size + '/'.utf8Size) := by
    intro same
    have before := inside.opened _ (List.mem_of_head? same)
    have positive := '*'.utf8Size_pos
    omega
  obtain ⟨top, innermost, declared⟩ := inside.exists_top? theme
  have closed := DirectWalk.step_closing there innermost declared absent
    (Pattern.here?_pair expr?_commentClosing front rest) apart
  refine ⟨_, DirectWalk.complete_of_step closed, ?_, ?_, ?_, ?_⟩
  · simp [Nat.add_assoc]
  · rw [inside.stack]
    cases depth <;> rfl
  · rw [inside.unpainted]
    rfl
  · intro place listed
    have before := inside.opened place (List.mem_of_mem_tail listed)
    dsimp only
    omega

/-- Any other character counts for nothing. -/
theorem skip {c : Char} (notOpening : ∀ more, c :: rest ≠ '/' :: '*' :: more)
    (notClosing : ∀ more, c :: rest ≠ '*' :: '/' :: more) :
    ∃ next, walk.complete (grammar theme) (front ++ c :: rest) =
        next.complete (grammar theme) (front ++ c :: rest) ∧
      Inside (front ++ [c]) (depth + 1) next := by
  have silent : DirectWalk.Silent (grammar theme) walk front c rest := {
    openings := by
      rw [inside.spans_eq]
      exact List.forall_mem_singleton.mpr
        (Pattern.here?_pair_eq_none expr?_commentOpening notOpening)
    closing := by
      intro top span innermost declared
      obtain ⟨other, same, known⟩ := inside.exists_top? theme
      cases same.symm.trans innermost
      cases known.symm.trans declared
      exact Pattern.here?_pair_eq_none expr?_commentClosing notClosing
    rules := .inl inside.unpainted }
  refine ⟨_, DirectWalk.complete_skip inside.there silent (solid theme), ?_, inside.stack,
    inside.unpainted, fun place listed => ?_⟩
  · simp [DirectWalk.moveTo, inside.there]
  · exact Nat.le_add_right_of_le (inside.opened place listed)

end Comment

/-- Only at its end a line may be outside of all comments. -/
theorem finish (inside : Inside front depth walk) :
    (walk.complete (grammar theme) front).map DirectWalk.stack = .ok (insideComments depth) := by
  have ended : walk.step (grammar theme) front = .ok none := by
    refine DirectWalk.step_byteLength inside.there ((solid theme).openingsSolid front) ?_
    intro top span innermost declared
    cases depth with
    | zero =>
        rw [inside.stack] at innermost
        cases innermost
    | succ depth =>
        obtain ⟨other, same, known⟩ := inside.exists_top? theme
        cases same.symm.trans innermost
        cases known.symm.trans declared
        exact commentClosing_solid front
  have reached : Text.byteLength front ≤ walk.position := Nat.le_of_eq inside.there.symm
  rw [DirectWalk.complete_of_done ended, DirectWalk.finish, DirectWalk.advance_of_le reached]
  exact congrArg Except.ok inside.stack

/-- A walk to the end of the line counts delimiters. -/
theorem complete {final : Nat} (counted : openComments? depth rest = some final)
    (inside : Inside front depth walk) :
    (walk.complete (grammar theme) (front ++ rest)).map DirectWalk.stack =
      .ok (insideComments final) := by
  fun_induction openComments? depth rest generalizing front walk with
  | case1 depth =>
      cases counted
      rw [List.append_nil]
      exact inside.finish
  | case2 => cases counted
  | case3 depth rest ih =>
      obtain ⟨next, same, deeper⟩ := inside.opening
      rw [same]
      simpa using ih counted deeper
  | case4 depth rest ih =>
      obtain ⟨next, same, shallower⟩ := inside.closing
      rw [same]
      simpa using ih counted shallower
  | case5 depth c rest notOpening notClosing ih =>
      obtain ⟨next, same, still⟩ := inside.skip (by simpa using notOpening) (by simpa using notClosing)
      rw [same]
      simpa using ih counted still

end Inside

/-- **Nested comments.** A line that is scanned inside of block comments is left inside of as many as the
delimiters on it leave open, whichever way they overlap, as long as no code follows behind the last
comment. -/
theorem scanLine_comments (theme : Theme) {depth final : Nat} {text : String}
    (counted : openComments? (depth + 1) text.toList = some final) :
    (grammar theme).scanLine (comments depth) text = .ok (insideComments final) := by
  have inside : Inside [] (depth + 1) (DirectWalk.start (grammar theme) (comments depth) none) :=
    ⟨rfl, rfl, rfl, List.forall_mem_nil _⟩
  rw [scanLine_eq_directly, scanLineDirectly]
  exact inside.complete counted

/-- A slash or an asterisk belongs to one delimiter only. -/
theorem scanLine_comments_overlapping :
    openComments? 1 "/*/ **/*".toList = some 1 ∧
      (grammar .standard).scanLine (comments 0) "/*/ **/*" = .ok [⟨0, 0⟩] :=
  have counted : openComments? 1 "/*/ **/*".toList = some 1 := by decide
  ⟨counted, scanLine_comments .standard counted⟩

end Languages.Rust

end Highlight
