import Highlight.Proofs.Scan.Balanced
import Highlight.Proofs.Scan.Ends
import Highlight.Proofs.Session.Kept

/-! # Kept stacks are paths of the grammar

A line that starts inside of a path of the grammar ends inside of one, and a session looks up the stack that
a line starts with where it has kept the stack of the line before. All that a session keeps are therefore
paths, if the stack that its document starts with is one (`Highlight.Session.paths_performAll`).
-/

namespace Highlight

namespace Cache

variable {grammar : Grammar} {cache after : Cache} {line : Nat} {stack : SpanStack}

/-- Whether all kept stacks are paths, if the stack at the start of the document is one. -/
def Paths (grammar : Grammar) (cache : Cache) : Prop :=
  grammar.IsPath (cache.stackAt 0) → ∀ stack, some stack ∈ cache.slots → grammar.IsPath stack

/-- The stack that is looked up for a line is kept or the one at the start of the document. -/
theorem Paths.stackAt (paths : cache.Paths grammar) (begins : grammar.IsPath (cache.stackAt 0))
    (line : Nat) : grammar.IsPath (cache.stackAt line) := by
  rw [Cache.stackAt]
  cases found : cache.slots[line]? with
  | none => exact .nil
  | some slot =>
      cases slot with
      | none => exact .nil
      | some stack => exact paths begins stack (List.mem_of_getElem? found)

theorem paths_starting (initial : SpanStack) : (starting initial).Paths grammar := by
  intro begins stack member
  cases List.mem_singleton.mp member
  exact begins

/-- Fewer stacks that start alike are paths too. -/
theorem Paths.of_subset (paths : cache.Paths grammar) (starts : after.stackAt 0 = cache.stackAt 0)
    (fewer : ∀ stack, some stack ∈ after.slots → some stack ∈ cache.slots) : after.Paths grammar := by
  intro begins stack member
  rw [starts] at begins
  exact paths begins stack (fewer stack member)

theorem Paths.invalidate (paths : cache.Paths grammar) (line : Nat) :
    (cache.invalidate line).Paths grammar :=
  paths

theorem Paths.forget (paths : cache.Paths grammar) : cache.forget.Paths grammar := by
  apply paths.of_subset
  · rw [Cache.stackAt, Cache.stackAt, Cache.forget, List.getElem?_take_of_lt Nat.one_pos]
  · exact fun stack member => List.mem_of_mem_take member

/-- An inserted slot is empty. -/
theorem Paths.insertSlot (paths : cache.Paths grammar) (line : Nat) :
    (cache.insertSlot line).Paths grammar := by
  rw [Cache.insertSlot]
  split
  · rename_i inside
    apply paths.of_subset
    · rw [Cache.stackAt, Cache.stackAt, List.getElem?_insertIdx_of_lt (Nat.lt_of_succ_le inside.1)]
    · intro stack member
      exact (List.eq_or_mem_of_mem_insertIdx member).resolve_left (Option.some_ne_none stack)
  · exact paths

/-- A slot that is removed leaves the others. -/
theorem Paths.removeSlot (paths : cache.Paths grammar) (line : Nat) :
    (cache.removeSlot line).Paths grammar := by
  rw [Cache.removeSlot]
  split
  · rename_i inside
    apply paths.of_subset
    · rw [Cache.stackAt, Cache.stackAt, List.getElem?_eraseIdx_of_lt (Nat.lt_of_succ_le inside.1)]
    · exact fun stack member => List.mem_of_mem_eraseIdx member
  · exact paths

/-- A stack that is kept was put there or kept before. -/
theorem mem_of_mem_store {other : SpanStack}
    (member : some other ∈ (cache.store line stack).1.slots) :
    other = stack ∨ some other ∈ cache.slots := by
  unfold store at member
  split at member
  · rcases List.mem_append.mp member with before | new
    · rcases List.mem_append.mp before with kept | padded
      · exact .inr kept
      · exact absurd (List.eq_of_mem_replicate padded) (Option.some_ne_none other)
    · exact .inl (Option.some.inj (List.mem_singleton.mp new))
  · rcases List.mem_or_eq_of_mem_set member with kept | new
    · exact .inr kept
    · exact .inl (Option.some.inj new)

/-- The stack at the end of a line that is scanned from a kept one may be kept. -/
theorem Paths.store (paths : cache.Paths grammar) (above : 1 ≤ line) {text : String}
    (scanned : grammar.scanLine (cache.stackAt (line - 1)) text = .ok stack) (stale : Nat) :
    { (cache.store line stack).1 with stale := stale }.Paths grammar := by
  intro begins other member
  have starts : (cache.store line stack).1.stackAt 0 = cache.stackAt 0 :=
    stackAt_store_of_ne (Nat.ne_of_lt above) stack
  have begun : grammar.IsPath (cache.stackAt 0) := starts ▸ begins
  rcases mem_of_mem_store member with rfl | kept
  · exact (paths.stackAt begun _).scanLine scanned
  · exact paths begun other kept

end Cache

namespace Session

/-- A new session keeps no stack. Notices make up none, and a scan keeps a path. -/
theorem cacheInvariant_paths (grammar : Grammar) : CacheInvariant grammar (Cache.Paths grammar) where
  starting := Cache.paths_starting .empty
  noticed := by
    intro document before request after ranges paths noticing
    cases request <;> cases noticing
    case invalidate line => exact paths.invalidate line
    case invalidateAll => exact paths.forget
    case lineChanged line => exact paths.invalidate line
    case lineInserted after line => exact (paths.insertSlot line).invalidate line
    case lineRemoved line => exact (paths.removeSlot line).invalidate line
    case rebuild => exact paths.forget
    case setInitialStack stack => exact Cache.paths_starting stack
  stored paths above scanned := paths.store above scanned _

/-- What a session keeps are paths, if the stack that its document starts with is one. -/
theorem paths_performAll (grammar : Grammar) (document : Document) (depth : Nat)
    (requests : List Request) :
    ((start grammar document).performAll (reaction depth) requests).cache.Paths grammar :=
  ((cacheInvariant_paths grammar).performAll document depth requests).2.2

end Session

namespace Grammar

open Scan

/-- **Stacks are paths of the grammar, and all side stacks are in step with them.** On every line that starts
inside of a path, with a painter or without, the walk has its stacks in step each time that it comes to its
loop, and is never stuck; the line ends inside of a path; and so every stack that a session keeps is a path if
its initial stack is one, whatever it has been asked for, at whatever moment and by whomever, and to whatever
depth scripts cause one another. -/
theorem stacks_are_paths {grammar : Grammar} {input : SpanStack} (path : grammar.IsPath input)
    (text : String) :
    (∀ mode walk opened,
      Walk.Visits grammar text.toList
          (Walk.start grammar input (mode.map fun offset => { origin := offset })) walk opened →
        walk.Balanced grammar text.toList input mode opened) ∧
      (∀ final, grammar.scanLine input text = .ok final → grammar.IsPath final) ∧
      (∀ number offset line final,
        grammar.highlightLine input number offset text = .ok (line, final) → grammar.IsPath final) ∧
      ∀ document depth requests,
        let session := (Session.start grammar document).performAll (Session.reaction depth) requests
        grammar.IsPath (session.cache.stackAt 0) →
          ∀ stack, some stack ∈ session.cache.slots → grammar.IsPath stack := by
  refine ⟨fun mode walk opened visits => visits.balanced path, fun final => path.scanLine, ?_,
    Session.paths_performAll grammar⟩
  intro number offset line final highlighted
  exact path.scanLine (strokes_of_highlightLine highlighted).1

/-- A rung is opened inside of a rail that an earlier line has left open, and what a session keeps of a line
that opens two rails and a rung is a path. -/
theorem stacks_are_paths_ladder :
    let session := (Session.start ladder (.ofLines ["b"])).handleAll [.highlight 1]
    (∃ walk,
      Walk.Visits ladder "b".toList (Walk.start ladder [⟨0, 0⟩] (some { origin := 3 })) walk 1 ∧
        walk.stack = [⟨1, 0⟩, ⟨0, 0⟩] ∧
        walk.Balanced ladder "b".toList [⟨0, 0⟩] (some 3) 1) ∧
      session.cache.slots = [some [], some [⟨0, 0⟩, ⟨1, 0⟩, ⟨0, 0⟩]] ∧
      ladder.IsPath [⟨0, 0⟩, ⟨1, 0⟩, ⟨0, 0⟩] := by
  intro session
  have path : ladder.IsPath [⟨0, 0⟩] := .cons .nil rfl rfl
  obtain ⟨inStep, _, _, kept⟩ := stacks_are_paths path "b"
  have slots : session.cache.slots = [some [], some [⟨0, 0⟩, ⟨1, 0⟩, ⟨0, 0⟩]] := by
    decide +kernel
  have begins : session.cache.stackAt 0 = [] := by
    rw [Cache.stackAt, slots]
    rfl
  refine ⟨?_, slots, ?_⟩
  · have opens : ((Walk.start ladder [⟨0, 0⟩] (some { origin := 3 })).step ladder
        "b".toList).next?.map Walk.stack = some [⟨1, 0⟩, ⟨0, 0⟩] := by
      decide +kernel
    obtain ⟨walk, goes, stack⟩ := Option.map_eq_some_iff.mp opens
    have visits := Walk.Visits.next .start goes
    rw [stack] at visits
    exact ⟨walk, visits, stack, inStep (some 3) walk 1 visits⟩
  · apply kept (.ofLines ["b"]) Session.nestingLimit [.highlight 1]
    · exact begins ▸ .nil
    · exact slots ▸ List.mem_cons_of_mem _ List.mem_cons_self

end Grammar

end Highlight
