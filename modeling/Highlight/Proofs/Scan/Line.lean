import Highlight.Proofs.Scan.Mirror
import Highlight.Scan.Line

/-! # What a line is made of

A line that is highlighted ends as the cheap scan of it does, and its sections are painted by strokes made
in order, whatever number and offset the line has (`Highlight.Grammar.highlightLine_draws`).
-/

namespace Highlight

namespace Scan

namespace Walk

section Start

variable (style : SpanRef → Option Style) (refs : List SpanRef)

theorem foldl_push_of_unpainted {walk : Walk} (unpainted : walk.painter = none) :
    refs.foldl (fun walk ref => walk.push (style ref)) walk = walk := by
  induction refs with
  | nil => rfl
  | cons ref rest ih => rw [List.foldl_cons, push_of_unpainted unpainted, ih]

/-- With a painter their styles are opened by strokes. -/
theorem foldl_push_withPainter (walk : Walk) (painter : Painter) :
    refs.foldl (fun walk ref => walk.push (style ref)) (walk.withPainter painter) =
      walk.withPainter
        (painter.draw (refs.map fun ref => .push (style ref) walk.position)) := by
  induction refs generalizing painter with
  | nil => rfl
  | cons ref rest ih => exact ih (painter.push (style ref) walk.position)

end Start

/-- A walk at the start of a line, before the styles of the open spans are opened. -/
def atStart (grammar : Grammar) (stack : SpanStack) : Walk :=
  { position := 0, stack := stack, activeId := grammar.activeId stack
    openings := unknownOpenings (grammar.active stack), painter := none }

/-- The strokes that open the styles of the spans that the lines before have left open. -/
def startStrokes (grammar : Grammar) (stack : SpanStack) : List Stroke :=
  stack.outermostFirst.map fun ref => .push ((grammar.span? ref).bind Span.bodyStyle) 0

theorem start_none (grammar : Grammar) (stack : SpanStack) :
    start grammar stack none = atStart grammar stack :=
  foldl_push_of_unpainted _ _ rfl

theorem start_some (grammar : Grammar) (stack : SpanStack) (painter : Painter) :
    start grammar stack (some painter) =
      (atStart grammar stack).withPainter (painter.draw (startStrokes grammar stack)) :=
  foldl_push_withPainter _ _ (atStart grammar stack) painter

theorem atStart_sound (grammar : Grammar) (stack : SpanStack) (text : List Char) :
    (atStart grammar stack).Sound text :=
  ⟨rfl, Text.isBoundary_zero text, allSound_unknown text _, fun _ member => nomatch member⟩

theorem startStrokes_inOrder (grammar : Grammar) (stack : SpanStack) (text : List Char) :
    InOrder text 0 (startStrokes grammar stack) 0 := by
  refine .of_same_position (Text.isBoundary_zero text) fun stroke member => ?_
  obtain ⟨ref, _, rfl⟩ := List.mem_map.mp member
  rfl

end Walk

/-- The sections painted from `origin` on by strokes, when every style still open is closed at `stop`. -/
def paintedSections (origin : Nat) (strokes : List Stroke) (stop : Nat) : List Section :=
  ((({ origin := origin } : Painter).draw strokes).popAll stop).sections

end Scan

namespace Grammar

open Scan

/-- **What a line is made of.** Either a rule of the grammar matches nothing on the line, whatever its
number and offset, or the full scan ends as the cheap one does and its sections are painted by strokes
that the number and the offset do not change. -/
theorem highlightLine_draws (grammar : Grammar) (stack : SpanStack) (text : String) :
    (∃ pattern, ∀ number offset,
        grammar.highlightLine stack number offset text = .error (.emptyRule pattern)) ∨
      ∃ strokes, InOrder text.toList 0 strokes (Text.byteLength text.toList) ∧
        ∀ number offset, grammar.highlightLine stack number offset text =
          (grammar.scanLine stack text).map fun final =>
            ({ number := number, offset := offset, length := Text.byteLength text.toList
               sections := paintedSections offset strokes (Text.byteLength text.toList) },
              final) := by
  have walks := (Walk.atStart_sound grammar stack text.toList).complete_draws grammar
  simp only [highlightLine, scanLine, Walk.start_none, Walk.start_some]
  rcases walks with ⟨pattern, fails⟩ | ⟨strokes, ordered, draws⟩
  · exact .inl ⟨pattern, fun number offset => by rw [fails]; rfl⟩
  · refine .inr ⟨Walk.startStrokes grammar stack ++ strokes,
      (Walk.startStrokes_inOrder grammar stack _).append ordered, fun number offset => ?_⟩
    rw [draws]
    cases (Walk.atStart grammar stack).complete grammar text.toList with
    | error fault => rfl
    | ok last => simp [Except.map, Walk.withPainter, paintedSections, Painter.draw_append]

/-- A line that is highlighted ends as the cheap scan of it does. -/
theorem strokes_of_highlightLine {grammar : Grammar} {stack final : SpanStack}
    {number offset : Nat} {text : String} {line : StyledLine}
    (highlighted : grammar.highlightLine stack number offset text = .ok (line, final)) :
    grammar.scanLine stack text = .ok final ∧
      ∃ strokes, InOrder text.toList 0 strokes (Text.byteLength text.toList) ∧
        line = { number := number, offset := offset, length := Text.byteLength text.toList
                 sections := paintedSections offset strokes (Text.byteLength text.toList) } := by
  rcases grammar.highlightLine_draws stack text with ⟨pattern, fails⟩ | ⟨strokes, ordered, draws⟩
  · rw [fails] at highlighted
    contradiction
  · rw [draws] at highlighted
    cases scanned : grammar.scanLine stack text with
    | error fault =>
        rw [scanned] at highlighted
        contradiction
    | ok last =>
        rw [scanned] at highlighted
        cases highlighted
        exact ⟨rfl, strokes, ordered, rfl⟩

end Grammar

end Highlight
