import Highlight.Session.Cache
import Mathlib.Data.List.InsertIdx

/-! # The slots of a cache

What becomes of the slots and of the marker when a stack is kept, when room is made for a line, and when the
slot of a line is dropped.
-/

namespace Highlight.Cache

variable {cache : Cache} {line : Nat}

theorem getElem?_insertSlot_of_lt {other : Nat} (before : other < line) :
    (cache.insertSlot line).slots[other]? = cache.slots[other]? := by
  unfold insertSlot
  split
  · exact List.getElem?_insertIdx_of_lt before
  · rfl

theorem getElem?_removeSlot_of_lt {other : Nat} (before : other < line) :
    (cache.removeSlot line).slots[other]? = cache.slots[other]? := by
  unfold removeSlot
  split
  · exact List.getElem?_eraseIdx_of_lt before
  · rfl

theorem insertSlot_of_length_le (outside : cache.slots.length ≤ line) :
    cache.insertSlot line = cache := by
  rw [insertSlot, if_neg (by omega)]

theorem removeSlot_of_outside (outside : line = 0 ∨ cache.slots.length ≤ line) :
    cache.removeSlot line = cache := by
  rw [removeSlot, if_neg (by omega)]

theorem stale_insertSlot (cache : Cache) (line : Nat) :
    (cache.insertSlot line).stale = cache.stale := by
  unfold insertSlot
  split <;> rfl

theorem stale_removeSlot (cache : Cache) (line : Nat) :
    (cache.removeSlot line).stale = cache.stale := by
  unfold removeSlot
  split <;> rfl

theorem stale_store (cache : Cache) (line : Nat) (stack : SpanStack) :
    (cache.store line stack).1.stale = cache.stale := by
  unfold store
  split <;> rfl

/-- The marker is not moved in front of the first line. -/
theorem one_le_stale_invalidate (line : Nat) (positive : 1 ≤ cache.stale) :
    1 ≤ (cache.invalidate line).stale :=
  Nat.le_min.mpr ⟨positive, Nat.le_max_right line 1⟩

theorem stale_invalidate_le (cache : Cache) (line : Nat) :
    (cache.invalidate line).stale ≤ cache.stale :=
  Nat.min_le_left _ _

/-- Storing never leaves a gap behind the slots there are. -/
theorem getElem?_store (reached : line ≤ cache.slots.length) (stack : SpanStack) (other : Nat) :
    (cache.store line stack).1.slots[other]? =
      if other = line then some (some stack) else cache.slots[other]? := by
  unfold store
  split
  · rename_i absent
    have last : cache.slots.length = line :=
      Nat.le_antisymm (List.getElem?_eq_none_iff.mp absent) reached
    simp only [last, Nat.sub_self, List.replicate_zero, List.append_nil]
    rw [List.getElem?_append, last]
    grind
  · rename_i old found
    have inside := (List.getElem?_eq_some_iff.mp found).1
    rw [List.getElem?_set]
    grind

theorem store_of_some {old : Option SpanStack} (found : cache.slots[line]? = some old)
    (stack : SpanStack) : (cache.store line stack).2 = (old != some stack) := by
  rw [store, found]

/-- Keeping a stack adds a slot if it is the next one. -/
theorem length_store (reached : line ≤ cache.slots.length) (stack : SpanStack) :
    (cache.store line stack).1.slots.length = max cache.slots.length (line + 1) := by
  unfold store
  split
  · rename_i absent
    have last : cache.slots.length = line :=
      Nat.le_antisymm (List.getElem?_eq_none_iff.mp absent) reached
    simp [last]
  · rename_i old found
    have inside := (List.getElem?_eq_some_iff.mp found).1
    rw [List.length_set]
    omega

/-- A stack that is kept is found again. -/
theorem stackAt_store (cache : Cache) (line : Nat) (stack : SpanStack) :
    (cache.store line stack).1.stackAt line = stack := by
  unfold store
  split
  · rename_i absent
    have short := List.getElem?_eq_none_iff.mp absent
    have place : (cache.slots ++ List.replicate (line - cache.slots.length) none).length = line := by
      rw [List.length_append, List.length_replicate, Nat.add_sub_of_le short]
    rw [stackAt, List.getElem?_append_right (Nat.le_of_eq place), place, Nat.sub_self]
    rfl
  · rename_i old found
    have inside := (List.getElem?_eq_some_iff.mp found).1
    rw [stackAt, List.getElem?_set_self inside]
    rfl

/-- The stacks at the ends of the other lines are not touched; slots that are padded hold none. -/
theorem stackAt_store_of_ne {other : Nat} (apart : other ≠ line) (stack : SpanStack) :
    (cache.store line stack).1.stackAt other = cache.stackAt other := by
  unfold store
  split
  · rename_i absent
    have short := List.getElem?_eq_none_iff.mp absent
    rw [stackAt, stackAt]
    dsimp only
    rw [List.append_assoc]
    by_cases kept : other < cache.slots.length
    · rw [List.getElem?_append_left kept]
    · rw [List.getElem?_append_right (Nat.le_of_not_lt kept),
        List.getElem?_eq_none (Nat.le_of_not_lt kept)]
      by_cases padded : other < line
      · rw [List.getElem?_append_left (by simp; omega), List.getElem?_replicate_of_lt (by omega)]
        rfl
      · rw [List.getElem?_eq_none (by simp; omega)]
  · rw [stackAt, stackAt, List.getElem?_set_ne apart.symm]

end Highlight.Cache
