import Highlight.Languages.Fragments
import Highlight.Proofs.Scan.Path

/-! # Every scan ends

Both loops of a scan come to their end, and the bounds they are run with are never reached
(`Highlight.Grammar.scan_ends`): a round along a line opens a span, which uses up some of the room for
openings, or closes one that is open (`Highlight.Scan.DirectWalk.room_of_step`), whatever rule sets the
spans lead to. What there is room for also bounds how deep a line leaves its spans.
-/

namespace Highlight

namespace Scan

/-- Styling the text between two delimiters takes at most one round more than it has bytes. -/
theorem paintRules_rounds (rules : List Rule) (text : List Char) {start stop : Nat}
    (ahead : start < stop) (painter : Painter) :
    ∃ count, count ≤ stop - start + 1 ∧
      RuleRounds rules (Text.takeBytes stop text) start (rules.map fun _ => .unknown) painter count
        (paintRules rules text start stop painter) ∧
      ∀ bound, stop - start + 1 ≤ bound →
        applyRules rules (Text.takeBytes stop text) bound start (rules.map fun _ => .unknown)
          painter = paintRules rules text start stop painter := by
  have short := Text.byteLength_takeBytes_le stop text
  obtain ⟨count, few, rounds⟩ :=
    (known_unknown Rule.pattern (Text.takeBytes stop text) start rules).ruleRounds painter
  rw [paintRules_eq_paintFrom rules text ahead painter]
  exact ⟨count, by omega, rounds, fun bound enough => rounds.applyRules_eq (by omega)⟩

theorem DirectWalk.room_start (grammar : Grammar) (text : List Char) (stack : SpanStack)
    (painter : Option Painter) :
    (start grammar stack painter).room text = 2 * Text.byteLength text + 1 := by
  simp only [room, start, reduceCtorEq, ↓reduceIte]
  omega

end Scan

namespace Grammar

open Scan

/-- A line leaves at most as many spans open as were open at its start and there is room for on it. -/
theorem length_of_scanLine {grammar : Grammar} {stack final : SpanStack} {text : String}
    (scanned : grammar.scanLine stack text = .ok final) :
    final.length ≤ stack.length + 2 * Text.byteLength text.toList + 1 := by
  have begins := DirectWalk.room_start grammar text.toList stack none
  obtain ⟨last, rfl, still, _⟩ :=
    exists_last_of_scanLine
      (fun walk => walk.stack.length + walk.room text.toList ≤
        stack.length + 2 * Text.byteLength text.toList + 1)
      (fun walk next before stepped => by
        rcases DirectWalk.room_of_step stepped with ⟨deeper, uses⟩ | ⟨shallower, keeps⟩
        · omega
        · omega)
      (by rw [begins, Nat.add_assoc]; exact Nat.le_refl _) scanned
  exact Nat.le_trans (Nat.le_add_right _ _) still

/-- **Every scan ends.** For every grammar, however its rule sets lead to each other and whatever its
patterns match, for every stack of open spans and every text of a line, with a painter or without: the loop
along the line ends with its last delimiter or with a fault, after no more rounds than a bound linear in the
depth of the stack and the length of the text, and every bound that large gives the same end. The line
leaves no more spans open than were open and twice its bytes and one. Every loop over the matches of rules
ends as well, after no more rounds than it has bytes ahead and one. -/
theorem scan_ends (grammar : Grammar) (stack : SpanStack) (text : String) :
    (∀ painter, ∃ count outcome,
      count ≤ stack.length + 4 * Text.byteLength text.toList + 3 ∧
        Walk.Rounds grammar text.toList (Walk.start grammar stack painter) count outcome ∧
        ∀ bound, stack.length + 4 * Text.byteLength text.toList + 3 ≤ bound →
          (Walk.start grammar stack painter).run grammar text.toList bound = outcome) ∧
      (∀ final, grammar.scanLine stack text = .ok final →
        final.length ≤ stack.length + 2 * Text.byteLength text.toList + 1) ∧
      (∀ number offset line final, grammar.highlightLine stack number offset text = .ok (line, final) →
        final.length ≤ stack.length + 2 * Text.byteLength text.toList + 1) ∧
      ∀ (rules : List Rule) (start stop : Nat) (painter : Painter), start < stop →
        ∃ count, count ≤ stop - start + 1 ∧
          RuleRounds rules (Text.takeBytes stop text.toList) start (rules.map fun _ => .unknown)
            painter count (paintRules rules text.toList start stop painter) ∧
          ∀ bound, stop - start + 1 ≤ bound →
            applyRules rules (Text.takeBytes stop text.toList) bound start
              (rules.map fun _ => .unknown) painter =
                paintRules rules text.toList start stop painter := by
  refine ⟨fun painter => ?_, fun final scanned => length_of_scanLine scanned,
    fun number offset line final highlighted => ?_,
    fun rules start stop painter ahead => paintRules_rounds rules text.toList ahead painter⟩
  · obtain ⟨count, outcome, few, rounds, _⟩ :=
      (DirectWalk.keeps_start grammar text.toList stack painter).rounds
    rw [← DirectWalk.start_eq_keeping] at rounds
    rw [DirectWalk.budget_eq, DirectWalk.room_start] at few
    have depth : (DirectWalk.start grammar stack painter).stack = stack := rfl
    rw [depth] at few
    exact ⟨count, outcome, by omega, rounds, fun bound enough => rounds.run_eq (by omega)⟩
  · exact length_of_scanLine (strokes_of_highlightLine highlighted).1

/-- Two rule sets that open one another without end, one over nothing and one over a character. -/
def ladder : Grammar where
  name := "ladder"
  main :=
    { name := "rail"
      spans := [{ opening := Languages.nothing
                  closing := .literal "z" rfl (by decide +kernel), inner := some 1 }] }
  nested :=
    [{ name := "rung"
       spans := [{ opening := .literal "." rfl (by decide +kernel)
                   closing := .literal "z" rfl (by decide +kernel), inner := some 0 }] }]

/-- On two characters they come to the greatest depth that there is room for. -/
theorem scan_ends_ladder :
    ladder.scanLine [] "ab" = .ok [⟨0, 0⟩, ⟨1, 0⟩, ⟨0, 0⟩, ⟨1, 0⟩, ⟨0, 0⟩] ∧
      [⟨0, 0⟩, ⟨1, 0⟩, ⟨0, 0⟩, ⟨1, 0⟩, (⟨0, 0⟩ : SpanRef)].length ≤
        ([] : SpanStack).length + 2 * Text.byteLength "ab".toList + 1 :=
  have scanned :
      ladder.scanLine [] "ab" = .ok [⟨0, 0⟩, ⟨1, 0⟩, ⟨0, 0⟩, ⟨1, 0⟩, ⟨0, 0⟩] := by
    decide +kernel
  ⟨scanned, (scan_ends ladder [] "ab").2.1 _ scanned⟩

end Grammar

end Highlight
