import Highlight.Style.Basic

/-! # Sections of a line

A highlighted line holds its styled sections in absolute byte offsets. Any two sections are disjoint or
one lies inside the other, in which case the outer one comes first in the list.
-/

namespace Highlight

/-- A stretch of text with a style. -/
structure Section where
  offset : Nat
  length : Nat
  style : Style
  deriving DecidableEq

namespace Section

/-- The offset just past the last byte. -/
def stop (sec : Section) : Nat := sec.offset + sec.length

/-- The section from `start` up to `stop`. -/
def between (start stop : Nat) (style : Style) : Section := ⟨start, stop - start, style⟩

/-- Whether a byte belongs to the section. -/
def contains (sec : Section) (offset : Nat) : Bool := sec.offset ≤ offset && offset < sec.stop

/-- Whether `second` starts only where `first` has ended. -/
def precedes (first second : Section) : Bool := first.stop ≤ second.offset

/-- Whether `inner` lies inside `outer`. -/
def encloses (outer inner : Section) : Bool :=
  outer.offset ≤ inner.offset && inner.stop ≤ outer.stop

end Section

/-- A line with its number, its place in the document, its length without a terminator, and its styled
sections, outer before inner. -/
structure StyledLine where
  number : Nat
  offset : Nat
  length : Nat
  sections : List Section := []
  deriving DecidableEq

namespace StyledLine

/-- The offset just past the last byte of the line. -/
def stop (line : StyledLine) : Nat := line.offset + line.length

/-- The styles of the sections that contain a byte, outermost first. -/
def stylesAt (line : StyledLine) (offset : Nat) : List Style :=
  (line.sections.filter (·.contains offset)).map Section.style

end StyledLine

end Highlight
