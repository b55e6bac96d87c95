import Highlight.Scan.Rules

/-! # Walking along a line

A walk goes from delimiter to delimiter: at each step the nearest opening or closing of a span is taken,
the text before it is styled by the active rules, and the stack of open spans is updated. Without a
painter only the stack is tracked and rules are not consulted.
-/

namespace Highlight.Scan

open Pattern (Hit)

/-- A walk at `position` of its line. `openings` is what is known of the openings of the active rule set,
and `saved` keeps the same for the rule sets around it, one entry for each span opened on this line and
still open. `emptyOpenAt` is the place of the last opening that matched nothing. -/
structure Walk where
  position : Nat
  stack : SpanStack
  activeId : Option Nat
  openings : List Pending
  saved : List (List Pending) := []
  emptyOpenAt : Option Nat := none
  painter : Option Painter

/-- Nothing known about the openings of a rule set. -/
def unknownOpenings (ruleSet : RuleSet) : List Pending := ruleSet.spans.map fun _ => .unknown

/-- The fault of a span whose delimiters match nothing. -/
def emptySpanFault (span : Span) : Fault := .emptySpan span.opening.source span.closing.source

namespace Walk

/-- Opens a style at the current position. -/
def push (walk : Walk) (style : Option Style) : Walk :=
  { walk with painter := walk.painter.map (·.push style walk.position) }

/-- Closes the style opened last at the current position. -/
def pop (walk : Walk) : Walk :=
  { walk with painter := walk.painter.map (·.pop walk.position) }

/-- The walk at another position. -/
def moveTo (walk : Walk) (position : Nat) : Walk := { walk with position := position }

/-- The walk with another stack, whose top decides which rule set is active. -/
def withStack (grammar : Grammar) (walk : Walk) (stack : SpanStack) : Walk :=
  { walk with stack := stack, activeId := grammar.activeId stack }

/-- The start of a line inside the spans of `stack`. The spans left open by earlier lines style the line
from its start. -/
def start (grammar : Grammar) (stack : SpanStack) (painter : Option Painter) : Walk :=
  let walk : Walk :=
    { position := 0, stack := stack, activeId := grammar.activeId stack
      openings := unknownOpenings (grammar.active stack), painter := painter }
  stack.outermostFirst.foldl
    (fun walk ref => walk.push ((grammar.span? ref).bind Span.bodyStyle)) walk

/-- Styles the text up to `stop` by the active rules and moves there. -/
def advance (grammar : Grammar) (text : List Char) (walk : Walk) (stop : Nat) :
    Except Fault Walk :=
  if stop ≤ walk.position then .ok walk
  else
    match walk.painter with
    | none => .ok (walk.moveTo stop)
    | some painter => do
      let rules := (grammar.resolve walk.activeId).rules
      let painter ← paintRules rules text walk.position stop painter
      return { walk with position := stop, painter := some painter }

/-- Closes the innermost open span over a match. A span opened on this line returns to what was known of
the openings around it; if its own opening is then still found at the current position, neither of its
delimiters has matched anything. -/
def close (grammar : Grammar) (walk : Walk) (top : SpanRef) (span : Span) (hit : Hit) :
    Except Fault Walk :=
  let walk := if span.bodyCoversClose then walk else walk.pop
  let walk := ((walk.push span.closeStyle).moveTo hit.stop).pop
  let walk := if span.bodyCoversClose then walk.pop else walk
  let walk := walk.withStack grammar (walk.stack.pop?.getD .empty)
  match walk.saved with
  | [] => .ok { walk with openings := unknownOpenings (grammar.resolve walk.activeId) }
  | openings :: saved =>
    let reopened := (openings[top.index]?.bind Pending.hit?).any (·.start = walk.position)
    if reopened then .error (emptySpanFault span)
    else .ok { walk with openings := openings, saved := saved }

/-- Opens a span over a match. A second opening that matches nothing at one position is refused, since
such spans would nest forever. -/
def openSpan (grammar : Grammar) (walk : Walk) (ref : SpanRef) (span : Span) (hit : Hit) :
    Except Fault Walk :=
  if hit.isEmpty && walk.emptyOpenAt = some walk.position then
    .error (emptySpanFault span)
  else
    let walk := if hit.isEmpty then { walk with emptyOpenAt := some walk.position } else walk
    let walk := if span.bodyCoversOpen then walk.push span.bodyStyle else walk
    let walk := ((walk.push span.openStyle).moveTo hit.stop).pop
    let walk := if span.bodyCoversOpen then walk else walk.push span.bodyStyle
    .ok { walk with
      stack := walk.stack.push ref
      activeId := span.inner
      openings := unknownOpenings (grammar.resolve span.inner)
      saved := walk.openings :: walk.saved }

end Walk

/-- The outcome of one step: the walk goes on, or no delimiter is left, or the grammar is malformed. A
walk is stuck if the next match belongs to no declared span. -/
inductive Step where
  | next (walk : Walk)
  | done (walk : Walk)
  | stuck (walk : Walk)
  | failed (fault : Fault)

namespace Step

/-- The step that a computation ends in, if it fails at no point. -/
def ofExcept : Except Fault Walk → Step
  | .ok walk => next walk
  | .error fault => failed fault

end Step

namespace Walk

/-- Takes the nearest delimiter. -/
def step (grammar : Grammar) (text : List Char) (walk : Walk) : Step :=
  let ruleSet := grammar.resolve walk.activeId
  let walk :=
    { walk with
      openings :=
        refreshAll (ruleSet.spans.map Span.opening) text walk.position walk.openings }
  let innermost := walk.stack.top?.bind fun top => (grammar.span? top).map fun span => (top, span)
  let closing := innermost.bind fun (_, span) => span.closing.find? text walk.position
  match nextMove? walk.openings closing with
  | none => .done walk
  | some (move, hit) =>
    match walk.advance grammar text hit.start with
    | .error fault => .failed fault
    | .ok walk =>
      match move with
      | .closing =>
        match innermost with
        | some (top, span) => .ofExcept (walk.close grammar top span hit)
        | none => .stuck walk
      | .opening index =>
        match walk.activeId, ruleSet.spans[index]? with
        | some id, some span => .ofExcept (walk.openSpan grammar ⟨id, index⟩ span hit)
        | _, _ => .stuck walk

/-- Takes delimiters while there are any, at most as many as the bound. -/
def run (grammar : Grammar) (text : List Char) : Nat → Walk → Step
  | 0, walk => .next walk
  | bound + 1, walk =>
    match walk.step grammar text with
    | .next walk => run grammar text bound walk
    | last => last

/-- A number of steps within which the walk over a line of `length` bytes, begun inside of `depth` spans,
comes to its end. At each byte boundary at most one opening matches nothing, and every span that is open
at the start or opened on the way is closed at most once. -/
def stepBound (depth length : Nat) : Nat := depth + 4 * length + 3

/-- Styles what is left of the line and closes all styles. -/
def finish (grammar : Grammar) (text : List Char) (walk : Walk) : Except Fault Walk := do
  let walk ← walk.advance grammar text (Text.byteLength text)
  return { walk with painter := walk.painter.map (·.popAll walk.position) }

/-- The walk over a whole line. -/
def complete (grammar : Grammar) (text : List Char) (walk : Walk) : Except Fault Walk :=
  match walk.run grammar text (stepBound walk.stack.length (Text.byteLength text)) with
  | .failed fault => .error fault
  | .next walk | .done walk | .stuck walk => walk.finish grammar text

end Walk

end Highlight.Scan
