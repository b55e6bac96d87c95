import Highlight.Line.Nesting

/-! # Laying one line's sections over another's

The sections of an overlay become children of the base sections that they fall inside. Where one crosses
the start or the end of a base section it is cut, so that the nesting rule still holds.

The base is walked once. Sections already passed are kept in reverse, and the offsets at which the passed
sections end are kept as a stack, innermost first, above the end of the line, which stays at the bottom.
-/

namespace Highlight

/-- The ends that lie past `offset`; the last entry is kept in any case. -/
def dropClosed (offset : Nat) : List Nat → List Nat
  | [] => []
  | [bottom] => [bottom]
  | stop :: ends => if stop ≤ offset then dropClosed offset ends else stop :: ends

/-- Pieces of a section from `start` up to `stop`, cut at the ends on the stack that come before `stop`.
Gives the pieces, the start of the last piece, and the ends that remain. -/
def cutAtEnds (style : Style) (start stop : Nat) : List Nat → List Section × Nat × List Nat
  | [] => ([], start, [])
  | top :: ends =>
    if stop ≤ top then
      ([], start, top :: ends)
    else if start < top then
      let (pieces, last, ends) := cutAtEnds style top stop ends
      (.between start top style :: pieces, last, ends)
    else
      cutAtEnds style start stop ends

/-- The pieces of a section from `start` up to `stop`, cut where an enclosing section ends first. Gives
also the start of what is still to be placed, and the ends that remain. -/
def piecesBetween (style : Style) (start stop : Nat) (ends : List Nat) :
    List Section × Nat × List Nat :=
  if stop ≤ start then
    ([], start, ends)
  else
    let (pieces, last, ends) := cutAtEnds style start stop (dropClosed start ends)
    (pieces ++ [.between last stop style], stop, ends)

/-- The sections that follow the start of an overlay section, with the pieces of that section placed
among them: before each of them the piece that ends where it starts, and the last piece at the end. -/
def placePieces (style : Style) (stop : Nat) : Nat → List Nat → List Section → List Section
  | start, ends, [] => (piecesBetween style start stop ends).1
  | start, ends, next :: rest =>
    if stop ≤ next.offset then
      (piecesBetween style start stop ends).1 ++ next :: rest
    else
      let (pieces, start, ends) := piecesBetween style start next.offset ends
      pieces ++ next :: placePieces style stop start (next.stop :: dropClosed next.offset ends) rest

/-- A walk over the sections of the base line. -/
structure OverlayWalk where
  passed : List Section
  ends : List Nat
  ahead : List Section

namespace OverlayWalk

/-- Passes the sections that start no later than `offset`. -/
def passTo (offset : Nat) (passed : List Section) (ends : List Nat) : List Section → OverlayWalk
  | [] => ⟨passed, ends, []⟩
  | next :: rest =>
    if offset < next.offset then
      ⟨passed, ends, next :: rest⟩
    else
      passTo offset (next :: passed) (next.stop :: dropClosed next.offset ends) rest

/-- The walk after one more section of the overlay has been placed. -/
def place (walk : OverlayWalk) (sec : Section) : OverlayWalk :=
  let walk := passTo sec.offset walk.passed walk.ends walk.ahead
  { walk with ahead := placePieces sec.style sec.stop sec.offset walk.ends walk.ahead }

/-- All sections of the line. -/
def sections (walk : OverlayWalk) : List Section := walk.passed.reverse ++ walk.ahead

end OverlayWalk

/-- The line with the sections of `overlay` laid over its own, without any check. -/
def StyledLine.place (line overlay : StyledLine) : StyledLine :=
  { line with
    sections := (overlay.sections.foldl OverlayWalk.place ⟨[], [line.stop], line.sections⟩).sections }

/-- Lays the sections of `overlay` over those of the line. Both must obey the nesting rule, and so must
the result; where the result does not, it is given all the same, together with the fault. -/
def StyledLine.merge (line overlay : StyledLine) : StyledLine × Except SectionFault Unit :=
  match line.validate, overlay.validate with
  | .error fault, _ => (line, .error fault)
  | .ok (), .error fault => (line, .error fault)
  | .ok (), .ok () =>
    let merged := line.place overlay
    (merged, merged.validate)

end Highlight
