import Highlight.Line.Section

/-! # Painting sections

A painter turns styles that are pushed and popped along a line into a list of sections. Styles that are
open at the same time become nested sections, the outer one first. A run that would be empty leaves no
section, and a style pushed where the last finished section of the same style ends continues that section.
-/

namespace Highlight.Scan

/-- The sections painted so far; for each style still open, innermost first, the place of its section, or
`none` where there is no style; and the place of the section finished last, if it may be continued. -/
structure Painter where
  origin : Nat
  sections : List Section := []
  opened : List (Option Nat) := []
  lastClosed : Option Nat := none

namespace Painter

/-- The place of the section finished last, if the style can continue it at `offset`. -/
def continuable? (painter : Painter) (style : Style) (offset : Nat) : Option Nat :=
  painter.lastClosed.filter fun index =>
    painter.sections[index]?.any fun sec => sec.style = style && sec.stop = offset

/-- Opens a style at `position` of the line. -/
def push (painter : Painter) (style : Option Style) (position : Nat) : Painter :=
  match style with
  | none => { painter with opened := none :: painter.opened }
  | some style =>
    let offset := painter.origin + position
    match painter.continuable? style offset with
    | some index =>
      { painter with opened := some index :: painter.opened, lastClosed := none }
    | none =>
      { painter with
        sections := painter.sections ++ [⟨offset, 0, style⟩]
        opened := some painter.sections.length :: painter.opened
        lastClosed := none }

/-- Closes the style opened last at `position` of the line. -/
def pop (painter : Painter) (position : Nat) : Painter :=
  match painter.opened with
  | [] => painter
  | none :: opened => { painter with opened := opened }
  | some index :: opened =>
    match painter.sections[index]? with
    | none => { painter with opened := opened }
    | some sec =>
      let length := painter.origin + position - sec.offset
      if length = 0 then
        { painter with sections := painter.sections.eraseIdx index, opened := opened }
      else
        { painter with
          sections := painter.sections.set index { sec with length := length }
          opened := opened
          lastClosed := some index }

/-- Closes every open style at `position` of the line. -/
def popAll (painter : Painter) (position : Nat) : Painter :=
  painter.opened.foldl (fun painter _ => painter.pop position) painter

/-- Paints one run of text. -/
def paint (painter : Painter) (style : Option Style) (start stop : Nat) : Painter :=
  (painter.push style start).pop stop

end Painter

end Highlight.Scan
