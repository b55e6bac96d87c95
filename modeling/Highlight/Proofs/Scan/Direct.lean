import Highlight.Proofs.Except
import Highlight.Proofs.Scan.Line

/-! # Scanning without keeping matches

The plainest walk along a line looks everything up where it stands. At each step every opening of the
active rule set is searched again, and so is every rule after each match of one, and nothing of what was
found is kept. A span that was opened on the line must not close where it was opened.

Such a walk needs no bound on its steps, since each of them uses up some of a budget
(`Highlight.Scan.DirectWalk.budget_lt_of_step`).
-/

namespace Highlight

namespace Scan

open Pattern (Hit)

section Nearest

variable {α : Type} (pattern : α → Pattern) (text : List Char) (position : Nat)

/-- The item whose pattern matches first from a place on, with its place in the list and the match. Of
several that match first the one listed first is taken. -/
def nearest? : List α → Option (Nat × α × Hit)
  | [] => none
  | item :: rest =>
    match (pattern item).find? text position, nearest? rest with
    | none, later => later.map fun (index, other, hit) => (index + 1, other, hit)
    | some hit, none => some (0, item, hit)
    | some hit, some (index, other, later) =>
      if later.start < hit.start then some (index + 1, other, later) else some (0, item, hit)

variable {pattern text position}

/-- The nearest item stands at its place in the list, and its pattern has the match. -/
theorem find?_of_nearest? {items : List α} {index : Nat} {item : α} {hit : Hit}
    (first : nearest? pattern text position items = some (index, item, hit)) :
    items[index]? = some item ∧ (pattern item).find? text position = some hit := by
  induction items generalizing index with
  | nil => cases first
  | cons head rest ih =>
      simp only [nearest?] at first
      split at first
      · obtain ⟨⟨place, other, later⟩, found, same⟩ := Option.map_eq_some_iff.mp first
        cases same
        exact ih found
      · rename_i matched _
        cases first
        exact ⟨rfl, matched⟩
      · rename_i matched found
        split at first
        · cases first
          exact ih found
        · cases first
          exact ⟨rfl, matched⟩

theorem within_of_nearest? {items : List α} {index : Nat} {item : α} {hit : Hit}
    (first : nearest? pattern text position items = some (index, item, hit)) :
    position ≤ hit.start ∧ hit.Within text :=
  Pattern.find?_within (find?_of_nearest? first).2

end Nearest

/-- Styles the matches of the rules in `text` from `position` on. -/
def paintFrom (rules : List Rule) (text : List Char) (position : Nat) (painter : Painter) :
    Except Fault Painter :=
  match _ : nearest? Rule.pattern text position rules with
  | none => .ok painter
  | some (_, rule, hit) =>
    if hit.isEmpty then .error (.emptyRule rule.pattern.source)
    else paintFrom rules text hit.stop (painter.paint rule.style hit.start hit.stop)
termination_by Text.byteLength text - position
decreasing_by
  rename_i first filled
  obtain ⟨late, within⟩ := within_of_nearest? first
  have inside := within.closes.le_byteLength
  have moves := Hit.lt_of_not_isEmpty filled
  omega

/-- Rules are applied by styling the nearest match and going on behind it, where nothing fails. -/
theorem paintFrom_eq (rules : List Rule) (text : List Char) (position : Nat) (painter : Painter) :
    paintFrom rules text position painter =
      match nearest? Rule.pattern text position rules with
      | none => .ok painter
      | some (_, rule, hit) =>
        if hit.isEmpty then .error (.emptyRule rule.pattern.source)
        else paintFrom rules text hit.stop (painter.paint rule.style hit.start hit.stop) := by
  rw [paintFrom]
  split <;> simp [*]

/-- A walk at `position` of its line. `openedAt` has the places at which the spans opened on this line were
opened, the innermost first, and `emptyOpenAt` the place of the last opening that matched nothing. -/
structure DirectWalk where
  position : Nat
  stack : SpanStack
  openedAt : List Nat := []
  emptyOpenAt : Option Nat := none
  painter : Option Painter

/-- A delimiter that a walk comes to. -/
inductive Delimiter where
  | opening (ref : SpanRef) (span : Span) (hit : Hit)
  | closing (span : Span) (hit : Hit)

namespace DirectWalk

/-- The first match that opens a span of the active rule set. -/
def opening? (grammar : Grammar) (text : List Char) (walk : DirectWalk) :
    Option (SpanRef × Span × Hit) := do
  let id ← grammar.activeId walk.stack
  let (index, span, hit) ←
    nearest? Span.opening text walk.position (grammar.resolve (some id)).spans
  return (⟨id, index⟩, span, hit)

/-- The first match that closes the innermost open span. -/
def closing? (grammar : Grammar) (text : List Char) (walk : DirectWalk) : Option (Span × Hit) := do
  let span ← grammar.span? (← walk.stack.top?)
  let hit ← span.closing.find? text walk.position
  return (span, hit)

/-- The nearest delimiter. The innermost span is closed only before everything that opens one. -/
def delimiter? (grammar : Grammar) (text : List Char) (walk : DirectWalk) : Option Delimiter :=
  match walk.opening? grammar text, walk.closing? grammar text with
  | none, none => none
  | none, some (span, hit) => some (.closing span hit)
  | some (ref, span, hit), none => some (.opening ref span hit)
  | some (ref, span, hit), some (innermost, last) =>
    if last.start < hit.start then some (.closing innermost last) else some (.opening ref span hit)

/-- Styles the text up to `stop` by the active rules and moves there. -/
def advance (grammar : Grammar) (text : List Char) (walk : DirectWalk) (stop : Nat) :
    Except Fault DirectWalk :=
  if stop ≤ walk.position then .ok walk
  else
    match walk.painter with
    | none => .ok { walk with position := stop }
    | some painter => do
      let rules := (grammar.active walk.stack).rules
      let painter ← paintFrom rules (Text.takeBytes stop text) walk.position painter
      return { walk with position := stop, painter := some painter }

/-- Closes the innermost open span over a match, unless that ends where the span was opened. -/
def close (walk : DirectWalk) (span : Span) (hit : Hit) : Except Fault DirectWalk :=
  if walk.openedAt.head? = some hit.stop then .error (emptySpanFault span)
  else
    .ok { walk with
      position := hit.stop
      stack := walk.stack.pop?.getD .empty
      openedAt := walk.openedAt.tail
      painter := walk.painter.map (·.draw (Walk.closeStrokes span walk.position hit.stop)) }

/-- Opens a span over a match, unless that matches nothing where a span was opened over nothing. -/
def openSpan (walk : DirectWalk) (ref : SpanRef) (span : Span) (hit : Hit) : Except Fault DirectWalk :=
  if hit.isEmpty && walk.emptyOpenAt = some walk.position then .error (emptySpanFault span)
  else
    .ok {
      position := hit.stop
      stack := walk.stack.push ref
      openedAt := walk.position :: walk.openedAt
      emptyOpenAt := if hit.isEmpty then some walk.position else walk.emptyOpenAt
      painter := walk.painter.map (·.draw (Walk.openStrokes span walk.position hit.stop)) }

/-- Styles the text up to a delimiter and takes it. -/
def take (grammar : Grammar) (text : List Char) (walk : DirectWalk) :
    Delimiter → Except Fault DirectWalk
  | .opening ref span hit => do (← walk.advance grammar text hit.start).openSpan ref span hit
  | .closing span hit => do (← walk.advance grammar text hit.start).close span hit

/-- Takes the nearest delimiter, if there is one. -/
def step (grammar : Grammar) (text : List Char) (walk : DirectWalk) :
    Except Fault (Option DirectWalk) :=
  match walk.delimiter? grammar text with
  | none => .ok none
  | some delimiter => (walk.take grammar text delimiter).map some

/-- A bound on the openings still to come: each covers some of the bytes ahead or, once at each place,
nothing. -/
def room (text : List Char) (walk : DirectWalk) : Nat :=
  (Text.byteLength text - walk.position) +
    (Text.byteLength text + 1 - walk.position -
      if walk.emptyOpenAt = some walk.position then 1 else 0)

/-- A bound on the delimiters still to come: those that close a span open already, and those that open one
over something or, once at each place, over nothing, with those that close it. -/
def budget (text : List Char) (walk : DirectWalk) : Nat :=
  walk.stack.length + 2 * (Text.byteLength text - walk.position) +
    2 * (Text.byteLength text + 1 - walk.position -
      if walk.emptyOpenAt = some walk.position then 1 else 0)

section Step

variable {grammar : Grammar} {text : List Char} {walk next : DirectWalk} {ref : SpanRef}
  {span : Span} {hit : Hit}

/-- The first opening belongs to a span of the active rule set, whose number its reference has. -/
theorem of_opening? (found : walk.opening? grammar text = some (ref, span, hit)) :
    grammar.activeId walk.stack = some ref.ruleSet ∧
      nearest? Span.opening text walk.position (grammar.active walk.stack).spans =
        some (ref.index, span, hit) := by
  obtain ⟨id, active, bound⟩ := Option.bind_eq_some_iff.mp found
  obtain ⟨⟨index, other, match_⟩, first, same⟩ := Option.bind_eq_some_iff.mp bound
  cases same
  rw [Grammar.active, active]
  exact ⟨rfl, first⟩

/-- Only a declared innermost span is closed, by the first match of its closing pattern. -/
theorem of_closing? (found : walk.closing? grammar text = some (span, hit)) :
    ∃ top rest, walk.stack = top :: rest ∧ grammar.span? top = some span ∧
      span.closing.find? text walk.position = some hit := by
  obtain ⟨top, innermost, bound⟩ := Option.bind_eq_some_iff.mp found
  obtain ⟨other, declared, matched⟩ := Option.bind_eq_some_iff.mp bound
  obtain ⟨last, ends, same⟩ := Option.bind_eq_some_iff.mp matched
  cases same
  obtain ⟨rest, stack⟩ := List.head?_eq_some_iff.mp innermost
  exact ⟨top, rest, stack, declared, ends⟩

/-- The nearest delimiter is the first opening or the first closing. -/
theorem of_delimiter? {delimiter : Delimiter}
    (nearest : walk.delimiter? grammar text = some delimiter) :
    (∃ ref span hit, delimiter = .opening ref span hit ∧
      walk.opening? grammar text = some (ref, span, hit)) ∨
    ∃ span hit, delimiter = .closing span hit ∧
      walk.closing? grammar text = some (span, hit) := by
  simp only [delimiter?] at nearest
  grind

/-- Moving ahead changes the place alone. -/
theorem of_advance {stop : Nat} (ahead : walk.position ≤ stop)
    (advanced : walk.advance grammar text stop = .ok next) :
    next.position = stop ∧ next.stack = walk.stack ∧ next.openedAt = walk.openedAt ∧
      next.emptyOpenAt = walk.emptyOpenAt := by
  simp only [advance] at advanced
  split at advanced
  · cases advanced
    exact ⟨Nat.le_antisymm ahead ‹_›, rfl, rfl, rfl⟩
  · split at advanced
    · cases advanced
      exact ⟨rfl, rfl, rfl, rfl⟩
    · obtain ⟨painter, _, same⟩ := exists_ok_of_bind advanced
      cases same
      exact ⟨rfl, rfl, rfl, rfl⟩

/-- Moving ahead makes no room for further spans. -/
theorem room_advance {stop : Nat} (ahead : walk.position ≤ stop)
    (advanced : walk.advance grammar text stop = .ok next) : next.room text ≤ walk.room text := by
  obtain ⟨there, _, _, empty⟩ := of_advance ahead advanced
  by_cases stays : walk.position = stop
  · simp only [room, there, empty, stays, Nat.le_refl]
  · simp only [room, there]
    split <;> split <;> omega

/-- Closing a span leads behind the match and out of the innermost span. -/
theorem of_close (closed : walk.close span hit = .ok next) :
    next.position = hit.stop ∧ next.stack = walk.stack.pop?.getD .empty := by
  rw [close] at closed
  split at closed
  · cases closed
  · cases closed
    exact ⟨rfl, rfl⟩

/-- Opening a span leads behind the match and into it. -/
theorem of_openSpan (opened : walk.openSpan ref span hit = .ok next) :
    next.position = hit.stop ∧ next.stack = walk.stack.push ref := by
  rw [openSpan] at opened
  split at opened
  · cases opened
  · cases opened
    exact ⟨rfl, rfl⟩

/-- Closing a span uses up no room. -/
theorem room_close (text : List Char) (forward : walk.position ≤ hit.stop)
    (closed : walk.close span hit = .ok next) : next.room text ≤ walk.room text := by
  simp only [close] at closed
  split at closed
  · cases closed
  · cases closed
    by_cases stays : walk.position = hit.stop
    · simp only [room, stays, Nat.le_refl]
    · simp only [room]
      split <;> split <;> omega

/-- Opening a span uses up what its match covers, or the one opening over nothing at its place. -/
theorem room_openSpan (within : hit.Within text) (there : walk.position = hit.start)
    (opened : walk.openSpan ref span hit = .ok next) : next.room text < walk.room text := by
  have ordered := within.ordered
  have inside := within.closes.le_byteLength
  simp only [openSpan] at opened
  split at opened
  · cases opened
  · rename_i fresh
    cases opened
    simp only [Bool.and_eq_true, decide_eq_true_eq, not_and] at fresh
    by_cases empty : hit.isEmpty = true
    · have stays : walk.position = hit.stop :=
        there.trans (Nat.le_antisymm ordered (Hit.isEmpty_iff.mp empty))
      have unused : ¬ walk.emptyOpenAt = some hit.stop := stays ▸ fresh empty
      simp only [room, empty, if_true, stays, if_neg unused]
      omega
    · have moves := Hit.lt_of_not_isEmpty empty
      simp only [room, if_neg empty]
      split <;> split <;> omega

/-- **What a step does.** It goes on to a delimiter ahead, and there it opens a span that the active rule set
declares or closes the innermost one. -/
theorem of_step (stepped : walk.step grammar text = .ok (some next)) :
    ∃ there hit, walk.position ≤ hit.start ∧ hit.Within text ∧
      walk.advance grammar text hit.start = .ok there ∧
      ((∃ ref span, grammar.activeId walk.stack = some ref.ruleSet ∧
          (grammar.active walk.stack).spans[ref.index]? = some span ∧
          there.openSpan ref span hit = .ok next) ∨
        ∃ top rest span, walk.stack = top :: rest ∧ there.close span hit = .ok next) := by
  rw [step] at stepped
  split at stepped
  · cases stepped
  · rename_i delimiter nearest
    obtain ⟨last, takes, same⟩ := exists_ok_of_map stepped
    cases same
    rcases of_delimiter? nearest with ⟨ref, span, hit, rfl, found⟩ | ⟨span, hit, rfl, found⟩
    · obtain ⟨active, first⟩ := of_opening? found
      obtain ⟨late, within⟩ := within_of_nearest? first
      obtain ⟨there, advanced, opened⟩ := exists_ok_of_bind takes
      exact ⟨there, hit, late, within, advanced,
        .inl ⟨ref, span, active, (find?_of_nearest? first).1, opened⟩⟩
    · obtain ⟨top, rest, stack, _, matched⟩ := of_closing? found
      obtain ⟨late, within⟩ := Pattern.find?_within matched
      obtain ⟨there, advanced, closed⟩ := exists_ok_of_bind takes
      exact ⟨there, hit, late, within, advanced, .inr ⟨top, rest, span, stack, closed⟩⟩

/-- A step opens a span and uses up some of the room for that, or closes the innermost one. -/
theorem room_of_step (stepped : walk.step grammar text = .ok (some next)) :
    (next.stack.length = walk.stack.length + 1 ∧ next.room text < walk.room text) ∨
      (walk.stack.length = next.stack.length + 1 ∧ next.room text ≤ walk.room text) := by
  obtain ⟨there, hit, late, within, advanced, delimiter⟩ := of_step stepped
  obtain ⟨reached, same, _⟩ := of_advance late advanced
  have before := room_advance late advanced
  rcases delimiter with ⟨ref, span, _, _, opened⟩ | ⟨top, rest, span, stack, closed⟩
  · have uses := room_openSpan within reached opened
    refine .inl ⟨?_, Nat.lt_of_lt_of_le uses before⟩
    rw [(of_openSpan opened).2, same]
    exact List.length_cons
  · have keeps := room_close text (reached ▸ within.ordered) closed
    refine .inr ⟨?_, Nat.le_trans keeps before⟩
    rw [(of_close closed).2, same, stack]
    exact List.length_cons

theorem budget_eq (text : List Char) (walk : DirectWalk) :
    walk.budget text = walk.stack.length + 2 * walk.room text := by
  simp only [budget, room]
  omega

/-- **Every step uses up some of the budget.** -/
theorem budget_lt_of_step (stepped : walk.step grammar text = .ok (some next)) :
    next.budget text < walk.budget text := by
  rw [budget_eq, budget_eq]
  rcases room_of_step stepped with ⟨deeper, uses⟩ | ⟨shallower, keeps⟩
  · omega
  · omega

end Step

/-- Takes delimiters while there are any. -/
def run (grammar : Grammar) (text : List Char) (walk : DirectWalk) : Except Fault DirectWalk :=
  match _ : walk.step grammar text with
  | .error fault => .error fault
  | .ok none => .ok walk
  | .ok (some next) => next.run grammar text
termination_by walk.budget text
decreasing_by exact budget_lt_of_step ‹_›

/-- A run is over where no step is left, and goes on with the run after a step. -/
theorem run_eq (grammar : Grammar) (text : List Char) (walk : DirectWalk) :
    walk.run grammar text =
      match walk.step grammar text with
      | .error fault => .error fault
      | .ok none => .ok walk
      | .ok (some next) => next.run grammar text := by
  rw [run]
  split <;> simp [*]

/-- The start of a line inside the spans of `stack`. -/
def start (grammar : Grammar) (stack : SpanStack) (painter : Option Painter) : DirectWalk where
  position := 0
  stack := stack
  painter := painter.map (·.draw (Walk.startStrokes grammar stack))

/-- Styles what is left of the line and closes all styles. -/
def finish (grammar : Grammar) (text : List Char) (walk : DirectWalk) : Except Fault DirectWalk := do
  let walk ← walk.advance grammar text (Text.byteLength text)
  return { walk with painter := walk.painter.map (·.popAll walk.position) }

/-- The walk over a whole line. -/
def complete (grammar : Grammar) (text : List Char) (walk : DirectWalk) :
    Except Fault DirectWalk := do
  (← walk.run grammar text).finish grammar text

end DirectWalk

end Scan

namespace Grammar

open Scan

/-- The stack at the end of a line, found without keeping matches. -/
def scanLineDirectly (grammar : Grammar) (stack : SpanStack) (text : String) :
    Except Fault SpanStack :=
  ((DirectWalk.start grammar stack none).complete grammar text.toList).map DirectWalk.stack

/-- The styled line and the stack at its end, found without keeping matches. -/
def highlightLineDirectly (grammar : Grammar) (stack : SpanStack) (number offset : Nat)
    (text : String) : Except Fault (StyledLine × SpanStack) :=
  ((DirectWalk.start grammar stack (some { origin := offset })).complete grammar text.toList).map
    fun walk =>
      ({ number := number, offset := offset, length := Text.byteLength text.toList
         sections := (walk.painter.map Painter.sections).getD [] }, walk.stack)

end Grammar

end Highlight
