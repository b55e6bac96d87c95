import Highlight.Languages.Toml
import Highlight.Proofs.Scan.Line
import Mathlib.Data.List.Basic

/-! # The cheap scan and the full one agree

Lines are replayed by the scan that computes only the stack and shown by the one that also paints. What
the full scan finds at the end of a line is what the cheap one finds, and where the cheap one succeeds the
full one fails only because of a rule that matches nothing, which the cheap one does not look at.
-/

namespace Highlight.Grammar

/-- **Agreement.** If the full scan succeeds the cheap one ends in the same stack. If the cheap one
succeeds the full one ends in the same stack or meets an empty rule, and if the cheap one meets an empty
span the full one meets the same span or an empty rule. -/
theorem scanLine_agrees (grammar : Grammar) (stack : SpanStack) (number offset : Nat)
    (text : String) :
    (∀ line final, grammar.highlightLine stack number offset text = .ok (line, final) →
      grammar.scanLine stack text = .ok final) ∧
    (∀ final, grammar.scanLine stack text = .ok final →
      (∃ line, grammar.highlightLine stack number offset text = .ok (line, final)) ∨
        ∃ pattern, grammar.highlightLine stack number offset text = .error (.emptyRule pattern)) ∧
    (∀ opening closing, grammar.scanLine stack text = .error (.emptySpan opening closing) →
      grammar.highlightLine stack number offset text = .error (.emptySpan opening closing) ∨
        ∃ pattern, grammar.highlightLine stack number offset text =
          .error (.emptyRule pattern)) := by
  refine ⟨fun line final highlighted => (strokes_of_highlightLine highlighted).1, ?_, ?_⟩
  · intro final scanned
    rcases grammar.highlightLine_draws stack text with ⟨pattern, fails⟩ | ⟨strokes, _, draws⟩
    · exact .inr ⟨pattern, fails number offset⟩
    · have highlighted := draws number offset
      rw [scanned] at highlighted
      exact .inl ⟨_, highlighted⟩
  · intro opening closing scanned
    rcases grammar.highlightLine_draws stack text with ⟨pattern, fails⟩ | ⟨strokes, _, draws⟩
    · exact .inr ⟨pattern, fails number offset⟩
    · have highlighted := draws number offset
      rw [scanned] at highlighted
      exact .inl highlighted

/-- A string left open by a line is still open for the next one, whichever scan has read the line. -/
theorem scanLine_agrees_open_string :
    (Languages.Toml.grammar .standard).highlightLine [] 1 0 "k = \"\"\"v" =
        .ok (⟨1, 0, 8, [⟨0, 1, Theme.standard.token .type⟩,
          ⟨4, 4, Theme.standard.token .string⟩]⟩, [⟨0, 1⟩]) ∧
      (Languages.Toml.grammar .standard).scanLine [] "k = \"\"\"v" = .ok [⟨0, 1⟩] :=
  have highlighted : (Languages.Toml.grammar .standard).highlightLine [] 1 0 "k = \"\"\"v" =
      .ok (⟨1, 0, 8, [⟨0, 1, Theme.standard.token .type⟩, ⟨4, 4, Theme.standard.token .string⟩]⟩,
        [⟨0, 1⟩]) := by
    decide +kernel
  ⟨highlighted, (scanLine_agrees _ [] 1 0 "k = \"\"\"v").1 _ _ highlighted⟩

end Highlight.Grammar
