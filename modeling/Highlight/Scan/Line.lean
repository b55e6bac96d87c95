import Highlight.Scan.Walk

/-! # Scanning lines

A line is scanned from the stack that the line before it left. The cheap scan computes only the stack for
the next line; the full one also gives the styled sections.
-/

namespace Highlight

namespace Grammar

/-- The stack at the end of a line. -/
def scanLine (grammar : Grammar) (stack : SpanStack) (text : String) :
    Except Scan.Fault SpanStack :=
  ((Scan.Walk.start grammar stack none).complete grammar text.toList).map Scan.Walk.stack

/-- The styled line and the stack at its end. -/
def highlightLine (grammar : Grammar) (stack : SpanStack) (number offset : Nat) (text : String) :
    Except Scan.Fault (StyledLine × SpanStack) :=
  ((Scan.Walk.start grammar stack (some { origin := offset })).complete grammar text.toList).map
    fun walk =>
      ({ number := number, offset := offset, length := Text.byteLength text.toList
         sections := (walk.painter.map Scan.Painter.sections).getD [] }, walk.stack)

/-- The stack after several lines, starting from the given one. -/
def scanLines (grammar : Grammar) : SpanStack → List String → Except Scan.Fault SpanStack
  | stack, [] => .ok stack
  | stack, line :: rest => do grammar.scanLines (← grammar.scanLine stack line) rest

end Grammar

end Highlight
