import Highlight.Proofs.Line.Laid
import Highlight.Proofs.Scan.Nesting
import Highlight.Proofs.Scan.Solid
import Highlight.Proofs.Session.Replay

/-! # Lines highlighted from the start

With a grammar that never fails every line of a document can be highlighted from the start
(`Highlight.Grammar.Solid.exists_freshLine`), and its sections start and end between characters of the
line (`Highlight.Grammar.boundaries_of_freshLine`).
-/

namespace Highlight.Grammar

variable {grammar : Grammar} {initial : SpanStack} {document : Document} {number : Nat}
  {styled : StyledLine}

/-- With a solid grammar any lines can be scanned one after another. -/
theorem Solid.exists_scanLines (solid : grammar.Solid) (stack : SpanStack) (lines : List String) :
    ∃ final, grammar.scanLines stack lines = .ok final := by
  induction lines generalizing stack with
  | nil => exact ⟨stack, rfl⟩
  | cons line rest ih =>
      obtain ⟨next, scanned⟩ := solid.scans stack line
      rw [scanLines, scanned]
      exact ih next

/-- With one, every line has a fresh answer. -/
theorem Solid.exists_freshLine (solid : grammar.Solid) (initial : SpanStack) (document : Document)
    (number : Nat) : ∃ styled, grammar.freshLine initial document number = .ok styled := by
  obtain ⟨input, scanned⟩ := solid.exists_scanLines initial (document.lines.take (number - 1))
  obtain ⟨styled, final, highlighted⟩ :=
    solid.highlights input number (document.startOffset number) (document.line number)
  refine ⟨styled, ?_⟩
  rw [freshLine, freshStack, scanned, Except.bind, highlighted]
  rfl

/-- A fresh line is the line highlighted inside of some spans, at its place. -/
theorem exists_highlightLine_of_freshLine
    (fresh : grammar.freshLine initial document number = .ok styled) :
    ∃ input offset final,
      grammar.highlightLine input number offset (document.line number) = .ok (styled, final) := by
  obtain ⟨input, _, shown⟩ := exists_ok_of_bind fresh
  obtain ⟨⟨_, final⟩, highlighted, rfl⟩ := exists_ok_of_map shown
  exact ⟨input, _, final, highlighted⟩

/-- A fresh line is valid, and its sections start and end between characters. -/
theorem boundaries_of_freshLine
    (fresh : grammar.freshLine initial document number = .ok styled) :
    styled.validate = .ok () ∧ ∀ edge, IsEdge styled.sections edge →
      Text.IsBoundary (document.line number).toList (edge - styled.offset) := by
  obtain ⟨input, offset, final, highlighted⟩ := exists_highlightLine_of_freshLine fresh
  obtain ⟨_, strokes, ordered, rfl⟩ := strokes_of_highlightLine highlighted
  obtain ⟨each, pairs⟩ := Scan.paintedSections_nested ordered offset
  constructor
  · rw [StyledLine.validate_eq_ok_iff]
    exact ⟨fun sec member => ⟨(each sec member).1.starts, (each sec member).1.ends⟩,
      pairs.imp fun ⟨starts, apart⟩ => apart.imp_right (And.intro starts)⟩
  · rintro edge ⟨sec, member, rfl | rfl⟩
    · exact (each sec member).1.opens
    · exact (each sec member).1.closes

end Highlight.Grammar
