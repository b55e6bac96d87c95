import Highlight.Proofs.Languages.Solid
import Highlight.Proofs.Scan.Path
import Highlight.Proofs.Scan.SingleLine
import Highlight.Proofs.Session.Fresh

/-! # What lines of the built-in grammars leave open

Of the spans of a grammar only those whose closing may fail to match can be innermost at the end of a line.
With the built-in grammars for C, TOML and Rust few of them are left, and which spans may lie around them is
told by the rule sets that declare them (`Highlight.Languages.reachable_stacks`).
-/

namespace Highlight

/-- The declared spans, each with the number of the rule set inside of it and its closing pattern. -/
def Grammar.outline (grammar : Grammar) : List (SpanRef × Option Nat × Pattern) :=
  grammar.ruleSets.zipIdx.flatMap fun (ruleSet, id) =>
    ruleSet.spans.zipIdx.map fun (span, index) => (⟨id, index⟩, span.inner, span.closing)

theorem Grammar.mem_outline {grammar : Grammar} {ref : SpanRef} {span : Span}
    (declared : grammar.span? ref = some span) :
    (ref, span.inner, span.closing) ∈ grammar.outline := by
  obtain ⟨ruleSet, known, listed⟩ := Option.bind_eq_some_iff.mp declared
  refine List.mem_flatMap.mpr ⟨(ruleSet, ref.ruleSet), List.mem_zipIdx_iff_getElem?.mpr known, ?_⟩
  exact List.mem_map.mpr ⟨(span, ref.index), List.mem_zipIdx_iff_getElem?.mpr listed, rfl⟩

namespace Languages

open Grammar

/-- The empty text is found wherever it is looked for. -/
theorem nothing_closes : nothing.Closes := by
  intro text start inside
  have empty : nothing.expr? = some .empty := rfl
  rw [Pattern.find?_eq_of_expr? empty]
  refine Pattern.Expr.exists_search (fun before offset => ?_) (by rwa [Nat.zero_add]) none
  exact List.cons_ne_nil _ _

/-- The closing patterns that match on every line. -/
def surelyClosing : List Pattern :=
  [nothing, lineEnd, quoteOrLineEnd, apostropheOrLineEnd, escaped]

/-- Each of these patterns does match on every line. -/
theorem closes_of_mem {pattern : Pattern} (listed : pattern ∈ surelyClosing) : pattern.Closes := by
  rcases List.mem_cons.mp listed with rfl | single
  · exact nothing_closes
  · have among : pattern ∈ [lineEnd, quoteOrLineEnd, apostropheOrLineEnd, escaped,
        Python.fieldClosing] := List.mem_append_left [Python.fieldClosing] single
    obtain ⟨closing, compiled⟩ := exists_compile_eq pattern among
    exact Pattern.closes_of_compile compiled

/-- Whether the spans of a grammar that do not surely close on their line are among those listed, and none
makes the main rule set active again. -/
def Lasting (grammar : Grammar) (lasting : List SpanRef) : Prop :=
  ∀ declared ∈ grammar.outline,
    (declared.2.2.isAmong surelyClosing = true ∨ declared.1 ∈ lasting) ∧ declared.2.1 ≠ some 0

instance (grammar : Grammar) (lasting : List SpanRef) : Decidable (Lasting grammar lasting) :=
  inferInstanceAs (Decidable (∀ declared ∈ grammar.outline, _ ∧ _))

namespace Lasting

variable {grammar : Grammar} {lasting : List SpanRef} {stack rest : SpanStack} {top : SpanRef}
  (outlined : Lasting grammar lasting)
include outlined

theorem eq_nil_of_activeId (active : grammar.activeId stack = some 0) : stack = [] := by
  cases stack with
  | nil => rfl
  | cons top rest =>
      obtain ⟨span, declared, inner⟩ := Option.bind_eq_some_iff.mp active
      exact absurd inner (outlined _ (mem_outline declared)).2

/-- The innermost span that a line leaves open is listed, and one of the main rule set stands alone. -/
theorem of_leftOpen (leftOpen : grammar.LeftOpen (top :: rest)) :
    top ∈ lasting ∧ grammar.IsPath rest ∧ grammar.activeId rest = some top.ruleSet ∧
      (top.ruleSet = 0 → rest = []) := by
  have path := leftOpen.path
  cases path with
  | cons outer active declared =>
      refine ⟨?_, outer, active, fun main => outlined.eq_nil_of_activeId (main ▸ active)⟩
      refine (outlined _ (mem_outline declared)).1.resolve_left fun surely => ?_
      exact leftOpen.innermost _ _ rfl declared (closes_of_mem (Pattern.mem_of_isAmong surely))

/-- Where all listed spans belong to the main rule set, at most one of them is left open. -/
theorem eq_nil_or_singleton (main : ∀ ref ∈ lasting, ref.ruleSet = 0)
    (leftOpen : grammar.LeftOpen stack) : stack = [] ∨ ∃ ref ∈ lasting, stack = [ref] := by
  cases stack with
  | nil => exact .inl rfl
  | cons top rest =>
      obtain ⟨listed, _, _, alone⟩ := outlined.of_leftOpen leftOpen
      exact .inr ⟨top, listed, by rw [alone (main top listed)]⟩

end Lasting

/-! ## The grammars -/

-- What spans a grammar declares does not depend on the styles, so that those of the standard theme are
-- looked at in place of all.

theorem lasting_c (theme : Theme) : Lasting (CFamily.grammar theme) [⟨0, 0⟩] := by
  show Lasting (CFamily.grammar .standard) _
  decide +kernel

theorem lasting_toml (theme : Theme) : Lasting (Toml.grammar theme) [⟨0, 1⟩, ⟨0, 2⟩] := by
  show Lasting (Toml.grammar .standard) _
  decide +kernel

theorem lasting_rust (theme : Theme) :
    Lasting (Rust.grammar theme) [⟨0, 0⟩, ⟨0, 2⟩, ⟨0, 3⟩, ⟨0, 4⟩, ⟨3, 0⟩] := by
  show Lasting (Rust.grammar .standard) _
  decide +kernel

/-- Block comments of Rust, the outermost one and as many inside of it as the depth says. -/
def Rust.comments (depth : Nat) : SpanStack := List.replicate depth ⟨3, 0⟩ ++ [⟨0, 0⟩]

/-- Only block comments make the rule set of comment bodies active. -/
theorem Rust.mem_of_inner {theme : Theme} :
    ∀ declared ∈ (Rust.grammar theme).outline, declared.2.1 = some 3 →
      declared.1 = ⟨0, 0⟩ ∨ declared.1 = ⟨3, 0⟩ := by
  show ∀ declared ∈ (Rust.grammar .standard).outline, _
  decide +kernel

/-- A path to the rule set of comment bodies goes through block comments only. -/
theorem Rust.exists_comments {theme : Theme} {stack : SpanStack}
    (path : (Rust.grammar theme).IsPath stack)
    (inside : (Rust.grammar theme).activeId stack = some 3) :
    ∃ depth, stack = Rust.comments depth := by
  induction path with
  | nil => cases inside
  | @cons rest ref span outer active declared ih =>
      obtain ⟨_, known, inner⟩ := Option.bind_eq_some_iff.mp inside
      rcases Rust.mem_of_inner _ (mem_outline known) inner with rfl | rfl
      · refine ⟨0, ?_⟩
        rw [(lasting_rust theme).eq_nil_of_activeId active]
        rfl
      · obtain ⟨depth, rfl⟩ := ih active
        exact ⟨depth + 1, rfl⟩

/-- What a line of Rust leaves open is nothing, a string alone or block comments alone. -/
theorem Rust.of_leftOpen {theme : Theme} {stack : SpanStack}
    (leftOpen : (Rust.grammar theme).LeftOpen stack) :
    stack ∈ [[], [⟨0, 2⟩], [⟨0, 3⟩], [⟨0, 4⟩]] ∨ ∃ depth, stack = Rust.comments depth := by
  cases stack with
  | nil => exact .inl List.mem_cons_self
  | cons top rest =>
      obtain ⟨listed, path, active, alone⟩ := (lasting_rust theme).of_leftOpen leftOpen
      simp only [List.mem_cons, List.not_mem_nil, or_false] at listed
      rcases listed with rfl | rfl | rfl | rfl | rfl
      · exact .inr ⟨0, by rw [alone rfl]; rfl⟩
      · exact .inl (by simp [alone rfl])
      · exact .inl (by simp [alone rfl])
      · exact .inl (by simp [alone rfl])
      · obtain ⟨depth, rfl⟩ := Rust.exists_comments path active
        exact .inr ⟨depth + 1, rfl⟩

/-- Block comments are among the spans that may be left open. -/
theorem Rust.mem_of_mem_comments {ref : SpanRef} {depth : Nat} (member : ref ∈ Rust.comments depth) :
    ref ∈ [⟨0, 0⟩, ⟨0, 2⟩, ⟨0, 3⟩, ⟨0, 4⟩, ⟨3, 0⟩] := by
  rcases List.mem_append.mp member with inner | outer
  · rw [List.eq_of_mem_replicate inner]
    decide
  · rw [List.mem_singleton.mp outer]
    decide

/-! ## Lines one after another -/

theorem exists_leftOpen {theme : Theme} (grammar : Grammar) (builtIn : grammar ∈ all theme)
    (lines : List String) :
    ∃ stack, grammar.scanLines [] lines = .ok stack ∧ grammar.LeftOpen stack := by
  obtain ⟨stack, scanned⟩ := (solid_of_mem_all builtIn).exists_scanLines [] lines
  exact ⟨stack, scanned, (leftOpen_nil grammar).scanLines scanned⟩

/-- Whether all of the open spans are declared to run over several lines and close over some text: none of
them is a comment or a string of one line, an escape or a whole token. -/
def RunOver (grammar : Grammar) (stack : SpanStack) : Prop :=
  ∀ ref ∈ stack, ∃ span, grammar.span? ref = some span ∧ span.multiline = true ∧
    span.closing ≠ nothing

/-- Only the empty text makes a pattern of it. -/
theorem ne_nothing {pattern : Pattern} (filled : pattern.source ≠ "") : pattern ≠ nothing := by
  rintro rfl
  exact filled rfl

theorem commentClosing_ne_nothing : commentClosing ≠ nothing := ne_nothing (by decide)

theorem quote_ne_nothing : quote ≠ nothing := ne_nothing (by decide)

theorem runOver_c (theme : Theme) : RunOver (CFamily.grammar theme) [⟨0, 0⟩] :=
  List.forall_mem_singleton.mpr
    ⟨CFamily.blockComment theme, rfl, rfl, commentClosing_ne_nothing⟩

theorem runOver_toml (theme : Theme) : RunOver (Toml.grammar theme) [⟨0, 1⟩, ⟨0, 2⟩] := by
  refine List.forall_mem_cons.mpr ⟨⟨_, rfl, rfl, ?_⟩, List.forall_mem_singleton.mpr ⟨_, rfl, rfl, ?_⟩⟩
  · show tripleQuote ≠ nothing
    exact ne_nothing (by decide)
  · show tripleApostrophe ≠ nothing
    exact ne_nothing (by decide)

/-- The comments and strings of Rust that run over lines close over some text. -/
theorem runOver_rust (theme : Theme) :
    RunOver (Rust.grammar theme) [⟨0, 0⟩, ⟨0, 2⟩, ⟨0, 3⟩, ⟨0, 4⟩, ⟨3, 0⟩] := by
  have hashed : Rust.hashedRawClosing ≠ nothing := ne_nothing (by decide)
  simp only [RunOver, List.forall_mem_cons]
  exact ⟨⟨_, rfl, rfl, commentClosing_ne_nothing⟩, ⟨_, rfl, rfl, hashed⟩,
    ⟨_, rfl, rfl, quote_ne_nothing⟩, ⟨_, rfl, rfl, quote_ne_nothing⟩,
    ⟨_, rfl, rfl, commentClosing_ne_nothing⟩, nofun⟩

/-- **What lines leave open.** Lines of C, TOML or Rust that are scanned one after another, from plain code
on, never fail. After each of them C is in plain code or inside of a block comment, TOML in plain code or
inside of a string between three quotes or apostrophes, and Rust in plain code, inside of a raw or ordinary
string or inside of block comments alone. -/
theorem reachable_stacks (theme : Theme) (lines : List String) (count : Nat) :
    (∃ stack, (CFamily.grammar theme).scanLines [] (lines.take count) = .ok stack ∧
        stack ∈ [[], [⟨0, 0⟩]] ∧ RunOver (CFamily.grammar theme) stack) ∧
      (∃ stack, (Toml.grammar theme).scanLines [] (lines.take count) = .ok stack ∧
        stack ∈ [[], [⟨0, 1⟩], [⟨0, 2⟩]] ∧ RunOver (Toml.grammar theme) stack) ∧
      ∃ stack, (Rust.grammar theme).scanLines [] (lines.take count) = .ok stack ∧
        (stack ∈ [[], [⟨0, 2⟩], [⟨0, 3⟩], [⟨0, 4⟩]] ∨ ∃ depth, stack = Rust.comments depth) ∧
        RunOver (Rust.grammar theme) stack := by
  refine ⟨?c, ?toml, ?rust⟩
  case c =>
    obtain ⟨stack, scanned, leftOpen⟩ :=
      exists_leftOpen (CFamily.grammar theme) (List.mem_cons_of_mem _ List.mem_cons_self)
        (lines.take count)
    refine ⟨stack, scanned, ?_⟩
    rcases (lasting_c theme).eq_nil_or_singleton (by decide) leftOpen with rfl | ⟨ref, listed, rfl⟩
    · exact ⟨List.mem_cons_self, nofun⟩
    · rw [List.mem_singleton.mp listed]
      exact ⟨List.mem_cons_of_mem _ List.mem_cons_self, runOver_c theme⟩
  case toml =>
    obtain ⟨stack, scanned, leftOpen⟩ :=
      exists_leftOpen (Toml.grammar theme) (by simp [all] : _ ∈ all theme) (lines.take count)
    refine ⟨stack, scanned, ?_⟩
    rcases (lasting_toml theme).eq_nil_or_singleton (by decide) leftOpen with
      rfl | ⟨ref, listed, rfl⟩
    · exact ⟨List.mem_cons_self, nofun⟩
    · refine ⟨?_, List.forall_mem_singleton.mpr (runOver_toml theme ref listed)⟩
      simpa using listed
  case rust =>
    obtain ⟨stack, scanned, leftOpen⟩ :=
      exists_leftOpen (Rust.grammar theme) List.mem_cons_self (lines.take count)
    have form := Rust.of_leftOpen leftOpen
    refine ⟨stack, scanned, form, fun ref member => runOver_rust theme ref ?_⟩
    rcases form with plain | ⟨depth, rfl⟩
    · simp only [List.mem_cons, List.not_mem_nil, or_false] at plain
      rcases plain with rfl | rfl | rfl | rfl
      · cases member
      all_goals
        rw [List.mem_singleton.mp member]
        decide
    · exact Rust.mem_of_mem_comments member

end Languages

end Highlight
