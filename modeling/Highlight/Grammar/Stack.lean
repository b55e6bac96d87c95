/-! # Stacks of open spans

A line starts inside the spans that the lines before it left open. A stack names them from the innermost
outwards; the empty stack is plain code outside of any span.
-/

namespace Highlight

/-- A span declaration: the number of the rule set that declares it, and its place in that set. -/
structure SpanRef where
  ruleSet : Nat
  index : Nat
  deriving DecidableEq

/-- Open spans, the innermost first. -/
abbrev SpanStack := List SpanRef

namespace SpanStack

/-- The stack with no open span. -/
def empty : SpanStack := []

/-- The stack with one more span open inside of the others. -/
def push (stack : SpanStack) (span : SpanRef) : SpanStack := span :: stack

/-- The stack with the innermost span closed, if there is one. -/
def pop? (stack : SpanStack) : Option SpanStack := stack.tail?

/-- The innermost open span. -/
def top? (stack : SpanStack) : Option SpanRef := stack.head?

/-- The open spans from the outermost inwards. -/
def outermostFirst (stack : SpanStack) : List SpanRef := stack.reverse

/-- The stack with the given spans open, the outermost first. -/
def ofOutermostFirst (spans : List SpanRef) : SpanStack := spans.reverse

@[simp] theorem top?_push (stack : SpanStack) (span : SpanRef) :
    (stack.push span).top? = some span := rfl

end SpanStack

end Highlight
