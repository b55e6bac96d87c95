import Highlight.Pattern.Expr
import Highlight.Text.Bytes

/-! # Matching

An expression, tried at one place of a text, has a list of ends, the preferred one first. The match at
that place is the head of the list, and a search takes the first place at which there is one.

Preferences are those of a backtracking matcher: an alternative is exhausted before the next one is
tried, and a greedy repetition tries one more round before it stops. An end that is reached in several
ways is listed where it is preferred most. A round of an unbounded repetition that consumes nothing ends
the repetition.
-/

namespace Highlight.Pattern

/-- A place in a text: the character before it, its byte offset and the characters after it. -/
structure Cursor where
  before : Option Char
  offset : Nat
  rest : List Char

namespace Cursor

/-- The start of a text. -/
def start (text : List Char) : Cursor := ⟨none, 0, text⟩

/-- Whether the character before the cursor belongs to a word. -/
def wordBefore (cursor : Cursor) : Bool := cursor.before.any Text.isWord

/-- Whether the character after the cursor belongs to a word. -/
def wordAfter (cursor : Cursor) : Bool := cursor.rest.head?.any Text.isWord

end Cursor

/-- Whether the condition holds at the cursor. -/
def Anchor.holds : Anchor → Cursor → Bool
  | textStart, cursor => cursor.before.isNone
  | textEnd, cursor => cursor.rest.isEmpty
  | lineStart, cursor => cursor.before.all (· == '\n')
  | lineEnd, cursor => cursor.rest.head?.all (· == '\n')
  | wordBoundary, cursor => cursor.wordBefore != cursor.wordAfter
  | notWordBoundary, cursor => cursor.wordBefore == cursor.wordAfter
  | wordStart, cursor => !cursor.wordBefore && cursor.wordAfter
  | wordEnd, cursor => cursor.wordBefore && !cursor.wordAfter
  | wordStartHalf, cursor => !cursor.wordBefore
  | wordEndHalf, cursor => !cursor.wordAfter

/-- The cursors without those whose offset occurs earlier in the list. -/
def distinct : List Cursor → List Cursor
  | [] => []
  | cursor :: rest => cursor :: (distinct rest).filter (·.offset != cursor.offset)

/-- The ends of exactly `count` rounds from any of the cursors. -/
def rounds (round : Cursor → List Cursor) : Nat → List Cursor → List Cursor
  | 0, cursors => cursors
  | count + 1, cursors => rounds round count (distinct (cursors.flatMap round))

/-- The ends of at most `count` rounds from the cursor. -/
def upTo (round : Cursor → List Cursor) (greedy : Bool) : Nat → Cursor → List Cursor
  | 0, cursor => [cursor]
  | count + 1, cursor =>
    let further := (round cursor).flatMap (upTo round greedy count)
    distinct (if greedy then further ++ [cursor] else cursor :: further)

/-- Depth-first traversal of the ends of any number of rounds that each consume something. Ends are
collected in reverse; a cursor already collected has been followed to all of its ends. The first
argument bounds the number of rounds, of which there are no more than characters left. -/
def followAll (round : Cursor → List Cursor) (greedy : Bool) :
    Nat → List Cursor → Cursor → List Cursor
  | 0, collected, cursor =>
    if collected.any (·.offset == cursor.offset) then collected else cursor :: collected
  | bound + 1, collected, cursor =>
    if collected.any (·.offset == cursor.offset) then
      collected
    else
      let next := (round cursor).filter (cursor.offset < ·.offset)
      if greedy then
        cursor :: next.foldl (followAll round greedy bound) collected
      else
        next.foldl (followAll round greedy bound) (cursor :: collected)

/-- The ends of any number of rounds that each consume something. -/
def anyNumber (round : Cursor → List Cursor) (greedy : Bool) (cursor : Cursor) : List Cursor :=
  (followAll round greedy cursor.rest.length [] cursor).reverse

/-- The ends of one round and then any number of rounds, where a first round that consumes nothing is
also the last. -/
def atLeastOne (round : Cursor → List Cursor) (greedy : Bool) (cursor : Cursor) : List Cursor :=
  distinct <| (round cursor).flatMap fun next =>
    if next.offset = cursor.offset then [next] else anyNumber round greedy next

/-- The ends of any number of rounds of a body that may consume nothing. -/
def anyNumberOfEmpty (round : Cursor → List Cursor) (greedy : Bool) (cursor : Cursor) :
    List Cursor :=
  distinct <|
    if greedy then atLeastOne round greedy cursor ++ [cursor]
    else cursor :: atLeastOne round greedy cursor

/-- The ends of an expression from a cursor, the preferred one first. -/
def Expr.ends : Expr → Cursor → List Cursor
  | empty, cursor => [cursor]
  | chars set, ⟨_, offset, rest⟩ =>
    match rest with
    | [] => []
    | c :: rest => if set.contains c then [⟨some c, offset + c.utf8Size, rest⟩] else []
  | anchor condition, cursor => if condition.holds cursor then [cursor] else []
  | seq first second, cursor => distinct ((first.ends cursor).flatMap second.ends)
  | alt first second, cursor => distinct (first.ends cursor ++ second.ends cursor)
  | repeated body least most greedy, cursor =>
    match least, most with
    | least, some most =>
      distinct ((rounds body.ends least [cursor]).flatMap (upTo body.ends greedy (most - least)))
    | 0, none =>
      if body.minWidth = 0 then anyNumberOfEmpty body.ends greedy cursor
      else anyNumber body.ends greedy cursor
    | least + 1, none =>
      distinct ((rounds body.ends least [cursor]).flatMap (atLeastOne body.ends greedy))

/-- Bytes `start` up to `stop` of a text. -/
structure Hit where
  start : Nat
  stop : Nat
  deriving DecidableEq

/-- Whether no byte is matched. -/
def Hit.isEmpty (hit : Hit) : Bool := hit.stop ≤ hit.start

/-- Whether a match covers whole characters of a text. -/
structure Hit.Within (text : List Char) (hit : Hit) : Prop where
  ordered : hit.start ≤ hit.stop
  opens : Text.IsBoundary text hit.start
  closes : Text.IsBoundary text hit.stop

/-- The preferred match that starts at the cursor. -/
def Expr.matchAt? (expr : Expr) (cursor : Cursor) : Option Hit :=
  (expr.ends cursor).head?.map fun stop => ⟨cursor.offset, stop.offset⟩

/-- The first match at or after byte `start`, looked for from a place given by the character before it,
its offset and the characters after it. -/
def Expr.search (expr : Expr) (start : Nat) : Option Char → Nat → List Char → Option Hit
  | before, offset, rest =>
    let here := if start ≤ offset then expr.matchAt? ⟨before, offset, rest⟩ else none
    match here, rest with
    | some hit, _ => some hit
    | none, [] => none
    | none, c :: rest => search expr start (some c) (offset + c.utf8Size) rest

/-- The first match of the expression in `text` that starts at or after byte `start`. Anchors see all of
the text. -/
def Expr.find? (expr : Expr) (text : List Char) (start : Nat) : Option Hit :=
  expr.search start none 0 text

end Highlight.Pattern
