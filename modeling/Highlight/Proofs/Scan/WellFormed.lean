import Highlight.Languages.Toml
import Highlight.Proofs.Line.Nesting
import Highlight.Proofs.Scan.Nesting
import Mathlib.Data.List.Basic

/-! # Highlighted lines are well-formed

What holds of painted sections holds of the lines that a grammar highlights, and it is more than the
nesting rule asks for (`Highlight.Grammar.wellFormed_of_highlightLine`).
-/

namespace Highlight

/-- A line that stands for a text, and whose sections are those of a tree: they lie on the line, are not
empty, start one after another between characters of the text, and are nested or disjoint. -/
structure StyledLine.WellFormed (line : StyledLine) (text : String) : Prop where
  covers : line.length = Text.byteLength text.toList
  valid : line.validate = .ok ()
  inside : ∀ sec ∈ line.sections, line.offset ≤ sec.offset ∧ sec.stop ≤ line.offset + line.length
  nested : line.sections.Pairwise fun first second =>
    first.stop ≤ second.offset ∨ first.offset ≤ second.offset ∧ second.stop ≤ first.stop
  nonempty : ∀ sec ∈ line.sections, 0 < sec.length
  sorted : line.sections.Pairwise fun first second => first.offset ≤ second.offset
  opens : ∀ sec ∈ line.sections, Text.IsBoundary text.toList (sec.offset - line.offset)
  closes : ∀ sec ∈ line.sections, Text.IsBoundary text.toList (sec.stop - line.offset)

namespace Grammar

/-- **Well-formed lines.** Every line that a grammar highlights, in whatever spans it starts, is the line
that was asked for and is well-formed. -/
theorem wellFormed_of_highlightLine (grammar : Grammar) (stack : SpanStack) (number offset : Nat)
    (text : String) {line : StyledLine} {final : SpanStack}
    (highlighted : grammar.highlightLine stack number offset text = .ok (line, final)) :
    line.number = number ∧ line.offset = offset ∧ line.WellFormed text := by
  obtain ⟨_, strokes, ordered, rfl⟩ := strokes_of_highlightLine highlighted
  obtain ⟨each, pairs⟩ := Scan.paintedSections_nested ordered offset
  have inside := fun sec member => And.intro (each sec member).1.starts (each sec member).1.ends
  have nested := pairs.imp fun ⟨starts, apart⟩ => Or.imp_right (And.intro starts) apart
  exact ⟨rfl, rfl,
    { covers := rfl
      valid := (StyledLine.validate_eq_ok_iff _).mpr ⟨inside, nested⟩
      inside := inside
      nested := nested
      nonempty := fun sec member => (each sec member).2
      sorted := pairs.imp And.left
      opens := fun sec member => (each sec member).1.opens
      closes := fun sec member => (each sec member).1.closes }⟩

/-- An escape inside of a string that has a character of two bytes. -/
theorem wellFormed_escape_in_string :
    (Languages.Toml.grammar .standard).highlightLine [] 1 10 "k = \"é\\n\"" =
        .ok (⟨1, 10, 10, [⟨10, 1, Theme.standard.token .type⟩, ⟨14, 6, Theme.standard.token .string⟩,
          ⟨17, 2, Theme.standard.token .special⟩]⟩, []) ∧
      StyledLine.WellFormed ⟨1, 10, 10, [⟨10, 1, Theme.standard.token .type⟩,
        ⟨14, 6, Theme.standard.token .string⟩, ⟨17, 2, Theme.standard.token .special⟩]⟩
        "k = \"é\\n\"" :=
  have highlighted : (Languages.Toml.grammar .standard).highlightLine [] 1 10 "k = \"é\\n\"" =
      .ok (⟨1, 10, 10, [⟨10, 1, Theme.standard.token .type⟩, ⟨14, 6, Theme.standard.token .string⟩,
        ⟨17, 2, Theme.standard.token .special⟩]⟩, []) := by decide +kernel
  ⟨highlighted, (wellFormed_of_highlightLine _ _ _ _ _ highlighted).2.2⟩

end Grammar

end Highlight
