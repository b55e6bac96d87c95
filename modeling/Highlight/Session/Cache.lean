import Highlight.Grammar.Stack

/-! # Cached stacks

For every line that has been scanned the stack at its end is kept, together with a marker: the first line
whose kept stack can no longer be trusted. Edits lower the marker and scanning raises it.
-/

namespace Highlight

/-- The stack at the end of each line, where slot 0 holds the stack that the document starts with and an
empty slot belongs to a line never scanned; and the first line that is not up to date. -/
structure Cache where
  slots : List (Option SpanStack)
  stale : Nat

namespace Cache

/-- Nothing known but the stack at the start of the document. -/
def starting (initial : SpanStack) : Cache := ⟨[some initial], 1⟩

/-- The kept stack at the end of a line, empty where there is none. -/
def stackAt (cache : Cache) (line : Nat) : SpanStack :=
  (cache.slots[line]?.bind id).getD .empty

/-- Keeps the stack at the end of a line. The second component says whether the next line may have been
shown with another stack: the slot held another stack, or it was empty because a line was inserted. -/
def store (cache : Cache) (line : Nat) (stack : SpanStack) : Cache × Bool :=
  match cache.slots[line]? with
  | none =>
    let padding := List.replicate (line - cache.slots.length) none
    ({ cache with slots := cache.slots ++ padding ++ [some stack] }, false)
  | some old =>
    ({ cache with slots := cache.slots.set line (some stack) }, old != some stack)

/-- Lowers the marker to a line. -/
def invalidate (cache : Cache) (line : Nat) : Cache :=
  { cache with stale := min cache.stale (max line 1) }

/-- Forgets everything but the stack at the start of the document. -/
def forget (cache : Cache) : Cache := ⟨cache.slots.take 1, 1⟩

/-- Makes room for an inserted line among the lines that have been scanned. -/
def insertSlot (cache : Cache) (line : Nat) : Cache :=
  if 1 ≤ line ∧ line < cache.slots.length then
    { cache with slots := cache.slots.insertIdx line none }
  else cache

/-- Drops the slot of a removed line. -/
def removeSlot (cache : Cache) (line : Nat) : Cache :=
  if 1 ≤ line ∧ line < cache.slots.length then
    { cache with slots := cache.slots.eraseIdx line }
  else cache

end Cache

end Highlight
