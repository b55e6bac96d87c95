import Highlight.Languages.Basic
import Highlight.Proofs.Scan.Solid

/-! # The built-in grammars never fail

Every opening and every rule of the built-in grammars covers at least one character, whatever the styles
of the theme (`Highlight.Languages.solid_of_mem_all`).
-/

namespace Highlight

/-- The patterns of all openings and rules. -/
def Grammar.patterns (grammar : Grammar) : List Pattern :=
  grammar.ruleSets.flatMap fun ruleSet =>
    ruleSet.spans.map Span.opening ++ ruleSet.rules.map Rule.pattern

/-- A grammar is solid if its openings and rules all have expressions of positive width. -/
theorem Grammar.solid_of_patterns {grammar : Grammar}
    (wide : ∀ pattern ∈ grammar.patterns, pattern.IsWide = true) : grammar.Solid where
  openings := by
    intro ruleSet listed span declared
    refine Pattern.solid_of_isWide (wide _ (List.mem_flatMap.mpr ⟨ruleSet, listed, ?_⟩))
    exact List.mem_append_left _ (List.mem_map_of_mem declared)
  rules := by
    intro ruleSet listed rule declared
    refine Pattern.solid_of_isWide (wide _ (List.mem_flatMap.mpr ⟨ruleSet, listed, ?_⟩))
    exact List.mem_append_right _ (List.mem_map_of_mem declared)

namespace Languages

/-- The patterns do not depend on the styles. -/
theorem patterns_all (theme : Theme) :
    (all theme).map Grammar.patterns = (all .standard).map Grammar.patterns :=
  rfl

theorem isWide_of_mem_patterns :
    ∀ patterns ∈ (all .standard).map Grammar.patterns, ∀ pattern ∈ patterns,
      pattern.IsWide = true := by
  decide +kernel

/-- **The built-in grammars are solid.** -/
theorem solid_of_mem_all {theme : Theme} {grammar : Grammar} (builtIn : grammar ∈ all theme) :
    grammar.Solid := by
  apply Grammar.solid_of_patterns
  apply isWide_of_mem_patterns
  rw [← patterns_all theme]
  exact List.mem_map_of_mem builtIn

end Languages

end Highlight
