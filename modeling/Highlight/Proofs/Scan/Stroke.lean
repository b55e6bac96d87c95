import Highlight.Proofs.Pattern.Reach
import Highlight.Scan.Painter

/-! # Strokes

What a walk does to a painter is a list of strokes: styles pushed and popped at places of the line. Strokes
that are made in order go from left to right and only stand between characters.
-/

namespace Highlight.Scan

/-- A style that is pushed, or the style pushed last that is popped, at a place of the line. -/
inductive Stroke where
  | push (style : Option Style) (position : Nat)
  | pop (position : Nat)

namespace Stroke

/-- The place of the line at which the stroke is made. -/
def position : Stroke → Nat
  | push _ position => position
  | pop position => position

/-- The painter after a stroke. -/
def apply (painter : Painter) : Stroke → Painter
  | push style position => painter.push style position
  | pop position => painter.pop position

end Stroke

/-- The painter after several strokes. -/
def Painter.draw (painter : Painter) (strokes : List Stroke) : Painter :=
  strokes.foldl Stroke.apply painter

namespace Painter

@[simp] theorem draw_nil (painter : Painter) : painter.draw [] = painter := rfl

@[simp] theorem draw_cons (painter : Painter) (stroke : Stroke) (rest : List Stroke) :
    painter.draw (stroke :: rest) = (stroke.apply painter).draw rest := rfl

theorem draw_append (painter : Painter) (first second : List Stroke) :
    painter.draw (first ++ second) = (painter.draw first).draw second :=
  List.foldl_append

end Painter

/-- Strokes made from left to right between two places of the line, each at a character boundary. -/
inductive InOrder (text : List Char) : Nat → List Stroke → Nat → Prop where
  | nil {start stop : Nat} (forward : start ≤ stop) : InOrder text start [] stop
  | cons {start stop : Nat} {stroke : Stroke} {rest : List Stroke}
      (forward : start ≤ stroke.position) (boundary : Text.IsBoundary text stroke.position)
      (later : InOrder text stroke.position rest stop) : InOrder text start (stroke :: rest) stop

namespace InOrder

variable {text : List Char} {start middle stop : Nat} {first second strokes : List Stroke}

theorem of_le (earlier : start ≤ middle) (ordered : InOrder text middle strokes stop) :
    InOrder text start strokes stop := by
  cases ordered with
  | nil forward => exact .nil (Nat.le_trans earlier forward)
  | cons forward boundary later => exact .cons (Nat.le_trans earlier forward) boundary later

theorem append (near : InOrder text start first middle) (far : InOrder text middle second stop) :
    InOrder text start (first ++ second) stop := by
  induction near with
  | nil forward => exact far.of_le forward
  | cons forward boundary _ ih => exact .cons forward boundary (ih far)

/-- Strokes that are all made at one boundary. -/
theorem of_same_position (boundary : Text.IsBoundary text start)
    (same : ∀ stroke ∈ strokes, stroke.position = start) : InOrder text start strokes start := by
  induction strokes with
  | nil => exact .nil (Nat.le_refl start)
  | cons stroke rest ih =>
      have here := same stroke List.mem_cons_self
      have later := ih fun other inside => same other (List.mem_cons_of_mem _ inside)
      exact .cons (Nat.le_of_eq here.symm) (here ▸ boundary) (here ▸ later)

end InOrder

end Highlight.Scan
