import Highlight.Pattern.Basic

/-! # Pending matches

While a line is scanned, the next match of each pattern that is waited for is looked up once and kept
until the scan has moved past its start. A pattern found to have no further match is not searched again.
-/

namespace Highlight.Scan

open Pattern (Hit)

/-- What is known of the next match of a pattern. -/
inductive Pending where
  | unknown
  | absent
  | found (hit : Hit)
  deriving DecidableEq

namespace Pending

/-- The outcome of a search. -/
def ofSearch : Option Hit → Pending
  | some hit => found hit
  | none => absent

/-- The match, if one is known. -/
def hit? : Pending → Option Hit
  | found hit => some hit
  | _ => none

/-- Whether a search from `position` is needed. -/
def isStale (position : Nat) : Pending → Bool
  | unknown => true
  | absent => false
  | found hit => hit.start < position

/-- The knowledge after a search from `position` where one is needed. -/
def refresh (text : List Char) (position : Nat) (pending : Pending) (pattern : Pattern) : Pending :=
  if pending.isStale position then ofSearch (pattern.find? text position) else pending

end Pending

/-- Refreshes the knowledge about each of the patterns. -/
def refreshAll (patterns : List Pattern) (text : List Char) (position : Nat)
    (pending : List Pending) : List Pending :=
  pending.zipWith (Pending.refresh text position) patterns

/-- The place in the list of the match that starts first, and the match. Of several that start together
the one listed first is taken. -/
def earliest? : List Pending → Option (Nat × Hit)
  | [] => none
  | pending :: rest =>
    match pending.hit?, earliest? rest with
    | none, none => none
    | none, some (index, hit) => some (index + 1, hit)
    | some hit, none => some (0, hit)
    | some hit, some (index, later) =>
      if later.start < hit.start then some (index + 1, later) else some (0, hit)

/-- What the next match of a span delimiter does: open the span with the given place in the active rule
set, or close the innermost open span. -/
inductive Move where
  | opening (index : Nat)
  | closing
  deriving DecidableEq

/-- The next move and its match. The innermost span is closed only where its closing pattern matches
before every opening pattern does. -/
def nextMove? (openings : List Pending) (closing : Option Hit) : Option (Move × Hit) :=
  match earliest? openings, closing with
  | none, none => none
  | none, some hit => some (.closing, hit)
  | some (index, hit), none => some (.opening index, hit)
  | some (index, hit), some last =>
    if last.start < hit.start then some (.closing, last) else some (.opening index, hit)

end Highlight.Scan
