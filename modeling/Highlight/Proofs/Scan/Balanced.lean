import Highlight.Proofs.Scan.Nesting
import Highlight.Proofs.Scan.Path

/-! # Stacks beside the stack of open spans

A walk keeps three things in step with the stack of open spans: the rule set that is active and what is known
of its openings, what is saved of the openings around each span opened on the line, and the painter's own
stack of styles. Opening and closing a span changes each of them by a statement of its own, in an order that
depends on how the span is styled. Every state in which a walk comes to its loop has them in step
(`Highlight.Scan.Walk.Visits.balanced`).
-/

namespace Highlight

namespace Scan

open Pattern (Hit)

/-- For each open span whether its body has a style. -/
def bodies (grammar : Grammar) (stack : SpanStack) : List Bool :=
  stack.map fun ref => ((grammar.span? ref).bind Span.bodyStyle).isSome

namespace Painter

/-- For each style that is still open whether there is one. -/
def shadows (painter : Painter) : List Bool := painter.opened.map Option.isSome

/-- Opening a style adds an entry to the painter's stack. -/
@[simp] theorem shadows_push (painter : Painter) (style : Option Style) (position : Nat) :
    (painter.push style position).shadows = style.isSome :: painter.shadows := by
  unfold shadows push
  cases style with
  | none => rfl
  | some style =>
      dsimp only
      split <;> rfl

@[simp] theorem shadows_pop (painter : Painter) (position : Nat) :
    (painter.pop position).shadows = painter.shadows.tail := by
  rw [shadows, opened_pop, shadows, List.map_tail]

/-- Styling an opening delimiter leaves the style of the body open. -/
theorem shadows_openStrokes (painter : Painter) (span : Span) (start stop : Nat) :
    (painter.draw (Walk.openStrokes span start stop)).shadows =
      span.bodyStyle.isSome :: painter.shadows := by
  unfold Walk.openStrokes
  split <;> simp [Stroke.apply]

/-- Styling a closing delimiter closes the style of the body. -/
theorem shadows_closeStrokes (painter : Painter) (span : Span) (start stop : Nat) :
    (painter.draw (Walk.closeStrokes span start stop)).shadows = painter.shadows.tail := by
  unfold Walk.closeStrokes
  split <;> simp [Stroke.apply]

/-- At the start of a line the styles of all spans that are open are opened. -/
theorem shadows_startStrokes (painter : Painter) (grammar : Grammar) (stack : SpanStack) :
    (painter.draw (Walk.startStrokes grammar stack)).shadows =
      bodies grammar stack ++ painter.shadows := by
  rw [Walk.startStrokes, SpanStack.outermostFirst]
  induction stack with
  | nil => rfl
  | cons ref outer ih =>
      rw [List.reverse_cons, List.map_append, draw_append]
      exact (shadows_push _ _ _).trans (congrArg _ ih)

/-- The styles of rules are closed where their matches end. -/
theorem shadows_paintFrom {rules : List Rule} {text : List Char} {position : Nat}
    {painter painted : Painter} (paints : paintFrom rules text position painter = .ok painted) :
    painted.shadows = painter.shadows := by
  fun_induction paintFrom rules text position painter with
  | case1 position painter absent =>
      cases paints
      rfl
  | case2 position painter index rule hit first empty => cases paints
  | case3 position painter index rule hit first filled ih =>
      rw [ih paints, paint, shadows_pop, shadows_push, List.tail_cons]

/-- What strokes do to the stack of any painter, they do to that of a painter that may be absent. -/
theorem map_shadows_draw (painter : Option Painter) {strokes : List Stroke}
    {change : List Bool → List Bool}
    (draws : ∀ painter : Painter, (painter.draw strokes).shadows = change painter.shadows) :
    (painter.map (·.draw strokes)).map shadows = (painter.map shadows).map change := by
  cases painter with
  | none => rfl
  | some painter => exact congrArg some (draws painter)

end Painter

/-- How many of the spans that were opened on a line are still open, once a step has led from one stack to
another. Spans that the line has found open are not counted. -/
def stillOpen (opened : Nat) (before after : SpanStack) : Nat :=
  if before.length < after.length then opened + 1 else opened - 1

namespace DirectWalk

variable {grammar : Grammar} {text : List Char} {walk next there : DirectWalk} {input : SpanStack}
  {mode : Option Nat} {opened : Nat}

/-- Whether the stacks of a walk that keeps no matches are in step. -/
structure Balanced (grammar : Grammar) (input : SpanStack) (mode : Option Nat) (opened : Nat)
    (walk : DirectWalk) : Prop where
  path : grammar.IsPath walk.stack
  openedAt : walk.openedAt.length = opened
  inherited : walk.stack.drop opened <:+ input
  painted : walk.painter.map Painter.shadows = mode.map fun _ => bodies grammar walk.stack

/-- Styling the text before a delimiter leaves the painter's stack as it was. -/
theorem shadows_advance {stop : Nat} (advanced : walk.advance grammar text stop = .ok there) :
    there.painter.map Painter.shadows = walk.painter.map Painter.shadows := by
  rw [advance] at advanced
  split at advanced
  · cases advanced
    rfl
  · split at advanced
    · rename_i unpainted
      cases advanced
      rfl
    · rename_i painter painted
      obtain ⟨last, paints, same⟩ := exists_ok_of_bind advanced
      cases same
      rw [painted]
      exact congrArg some (Painter.shadows_paintFrom paints)

/-- At the start of a line the stacks are in step with the spans that it starts inside of. -/
theorem balanced_start (path : grammar.IsPath input) (mode : Option Nat) :
    (start grammar input (mode.map fun offset => { origin := offset })).Balanced grammar input
      mode 0 where
  path := path
  openedAt := rfl
  inherited := List.suffix_refl input
  painted := by
    cases mode with
    | none => rfl
    | some offset =>
        exact congrArg some ((Painter.shadows_startStrokes _ grammar input).trans
          (List.append_nil _))

/-- Going on to a delimiter changes none of the stacks. -/
theorem Balanced.advance (balanced : walk.Balanced grammar input mode opened) {stop : Nat}
    (ahead : walk.position ≤ stop) (advanced : walk.advance grammar text stop = .ok there) :
    there.Balanced grammar input mode opened := by
  obtain ⟨_, stack, openedAt, _⟩ := of_advance ahead advanced
  constructor
  · rw [stack]
    exact balanced.path
  · rw [openedAt]
    exact balanced.openedAt
  · rw [stack]
    exact balanced.inherited
  · rw [shadows_advance advanced, stack]
    exact balanced.painted

/-- A span that is opened is counted and gets an entry in each of the stacks. -/
theorem Balanced.openSpan (balanced : walk.Balanced grammar input mode opened) {ref : SpanRef}
    {span : Span} {hit : Hit} (active : grammar.activeId walk.stack = some ref.ruleSet)
    (declared : grammar.span? ref = some span) (opens : walk.openSpan ref span hit = .ok next) :
    next.Balanced grammar input mode (opened + 1) := by
  rw [DirectWalk.openSpan] at opens
  split at opens
  · cases opens
  · cases opens
    have bodies_push : bodies grammar (walk.stack.push ref) =
        span.bodyStyle.isSome :: bodies grammar walk.stack := by
      rw [SpanStack.push, bodies, List.map_cons, declared, Option.bind_some]
      rfl
    constructor
    · exact balanced.path.cons active declared
    · exact congrArg (· + 1) balanced.openedAt
    · exact balanced.inherited
    · rw [Painter.map_shadows_draw _ fun painter =>
          painter.shadows_openStrokes span walk.position hit.stop,
        balanced.painted, Option.map_map, bodies_push]
      rfl

/-- A span that is closed loses its entry in each of the stacks. -/
theorem Balanced.close (balanced : walk.Balanced grammar input mode opened) {top : SpanRef}
    {rest : SpanStack} (inside : walk.stack = top :: rest) {span : Span} {hit : Hit}
    (closes : walk.close span hit = .ok next) :
    next.Balanced grammar input mode (opened - 1) := by
  have path := balanced.path
  have inherited := balanced.inherited
  have painted := balanced.painted
  rw [inside] at path inherited painted
  rw [DirectWalk.close, inside] at closes
  split at closes
  · cases closes
  · cases closes
    constructor
    · cases path with
      | cons outer _ _ => exact outer
    · rw [List.length_tail, balanced.openedAt]
    · cases opened with
      | zero => exact (List.suffix_cons top rest).trans inherited
      | succ opened => exact inherited
    · rw [Painter.map_shadows_draw _ fun painter =>
          painter.shadows_closeStrokes span walk.position hit.stop, painted, Option.map_map]
      rfl

/-- **One step** keeps the stacks in step. -/
theorem Balanced.step (balanced : walk.Balanced grammar input mode opened)
    (stepped : walk.step grammar text = .ok (some next)) :
    next.Balanced grammar input mode (stillOpen opened walk.stack next.stack) := by
  obtain ⟨there, hit, late, within, advanced, delimiter⟩ := of_step stepped
  have reached := balanced.advance late advanced
  have same := (of_advance late advanced).2.1
  rcases delimiter with ⟨ref, span, active, listed, opens⟩ | ⟨top, rest, span, stack, closes⟩
  · have declared : grammar.span? ref = some span := by
      rw [Grammar.active, active] at listed
      exact span?_of_declared listed
    have deeper : walk.stack.length < next.stack.length := by
      rw [(of_openSpan opens).2, same]
      exact Nat.lt_succ_self _
    rw [stillOpen, if_pos deeper]
    exact reached.openSpan (same ▸ active) declared opens
  · have shallower : ¬ walk.stack.length < next.stack.length := by
      rw [(of_close closes).2, same, stack]
      exact Nat.not_lt.mpr (Nat.le_succ _)
    rw [stillOpen, if_neg shallower]
    exact reached.close (same.trans stack) closes

end DirectWalk

/-! ## What is saved -/

namespace Saved

variable {grammar : Grammar} {text : List Char} {position : Nat} {stack : SpanStack}
  {places : List Nat} {saved : List (List Pending)}

theorem length_eq (kept : Saved grammar text position stack places saved) :
    saved.length = places.length := by
  induction kept with
  | nil stack => rfl
  | cons _ _ _ ih => exact congrArg (· + 1) ih

/-- What is saved for a span is known of the openings of the rule set around that span. -/
theorem known_of_getElem? (kept : Saved grammar text position stack places saved) {level : Nat}
    {openings : List Pending} (found : saved[level]? = some openings) :
    Known Span.opening text position (grammar.active (stack.drop (level + 1))).spans openings := by
  induction kept generalizing level with
  | nil stack => cases found
  | cons known _ _ ih =>
      cases level with
      | zero =>
          cases found
          exact known
      | succ level => exact ih found

end Saved

/-! ## States of the loop -/

namespace Step

/-- The walk with which the loop goes on after a step, if it does. -/
def next? : Step → Option Walk
  | next walk => some walk
  | done _ | stuck _ | failed _ => none

theorem next?_eq_some_iff {step : Step} {walk : Walk} :
    step.next? = some walk ↔ step = .next walk := by
  cases step with
  | next other => exact ⟨congrArg next ∘ Option.some.inj, congrArg some ∘ next.inj⟩
  | done _ | stuck _ | failed _ => exact ⟨nofun, nofun⟩

end Step

namespace Walk

variable {grammar : Grammar} {text : List Char} {start walk : Walk} {input : SpanStack}
  {mode : Option Nat} {opened : Nat}

/-- The states in which a walk comes to its loop, each with the number of spans opened on the line that are
still open. -/
inductive Visits (grammar : Grammar) (text : List Char) (start : Walk) : Walk → Nat → Prop where
  | start : Visits grammar text start start 0
  | next {walk next : Walk} {opened : Nat} (before : Visits grammar text start walk opened)
      (goes : (walk.step grammar text).next? = some next) :
      Visits grammar text start next (stillOpen opened walk.stack next.stack)

/-- Whether the stacks of a walk over a line that starts inside of the spans `input` are in step, where
`opened` spans have been opened on the line and are still open. In the mode with an offset the walk has a
painter. -/
structure Balanced (grammar : Grammar) (text : List Char) (input : SpanStack) (mode : Option Nat)
    (opened : Nat) (walk : Walk) : Prop where
  path : grammar.IsPath walk.stack
  inherited : walk.stack.drop opened <:+ input
  active : walk.activeId = grammar.activeId walk.stack
  openings : walk.openings.length = (grammar.resolve walk.activeId).spans.length
  saved : walk.saved.length = opened
  /-- What is saved for a span has one entry, still true, for each opening of the rule set around it. -/
  around : ∀ level openings, walk.saved[level]? = some openings →
    Known Span.opening text walk.position (grammar.active (walk.stack.drop (level + 1))).spans openings
  /-- The painter has one entry for each open span, and a section in it where the body has a style. -/
  painted : walk.painter.map Painter.shadows = mode.map fun _ => bodies grammar walk.stack
  unstuck : ∀ other, walk.step grammar text ≠ .stuck other

/-- A walk that keeps matches has its stacks in step if the one that keeps none has. -/
theorem balanced_keeping {walk : DirectWalk} {openings : List Pending} {saved : List (List Pending)}
    (keeps : walk.Keeps grammar text openings saved)
    (balanced : walk.Balanced grammar input mode opened) :
    (walk.keeping grammar openings saved).Balanced grammar text input mode opened where
  path := balanced.path
  inherited := balanced.inherited
  active := rfl
  openings := keeps.openings.length_eq.symm
  saved := keeps.saved.length_eq.trans balanced.openedAt
  around _ _ found := keeps.saved.known_of_getElem? found
  painted := balanced.painted
  unstuck other stuck := by
    have together := keeps.step
    rw [stuck] at together
    cases together

/-- **In every round** of the loop the stacks are in step. -/
theorem Visits.balanced (path : grammar.IsPath input)
    (visits : Visits grammar text
      (Walk.start grammar input (mode.map fun offset => { origin := offset })) walk opened) :
    walk.Balanced grammar text input mode opened := by
  have direct : ∃ (plain : DirectWalk) (openings : List Pending) (saved : List (List Pending)),
      walk = plain.keeping grammar openings saved ∧ plain.Keeps grammar text openings saved ∧
        plain.Balanced grammar input mode opened := by
    induction visits with
    | start =>
        exact ⟨_, _, _, DirectWalk.start_eq_keeping grammar input _,
          DirectWalk.keeps_start grammar text input _, DirectWalk.balanced_start path mode⟩
    | next before goes ih =>
        obtain ⟨plain, openings, saved, rfl, keeps, balanced⟩ := ih
        have together := keeps.step
        rw [Step.next?_eq_some_iff.mp goes] at together
        generalize stepped : plain.step grammar text = outcome at together
        cases together with
        | next still => exact ⟨_, _, _, rfl, still, balanced.step stepped⟩
  obtain ⟨plain, openings, saved, rfl, keeps, balanced⟩ := direct
  exact balanced_keeping keeps balanced

end Walk

end Scan

end Highlight
