import Highlight.Languages.Basic
import Highlight.Proofs.Pattern.Read
import Highlight.Proofs.Scan.Path

/-! # Spans within a line

A span that may not run over several lines closes at the end of its line at the latest, as long as it is the
innermost one there. A line leaves such a span open only together with one inside of it that may run over
several lines (`Highlight.Grammar.singleLine_left_open`), and so never where no such span can be opened
inside of it (`Highlight.Grammar.Confined`).
-/

namespace Highlight

/-- A span that is read to stay on its line may not run over several, and its closing also matches at the
end of the text. -/
theorem Span.of_readSingleLine {opening closing : String} {span : Span}
    (read : readSingleLine opening closing = .ok span) :
    span.multiline = false ∧ Pattern.compile (Pattern.orTextEnd closing) = .ok span.closing := by
  obtain ⟨whole, reads, read⟩ := exists_ok_of_bind read
  obtain ⟨first, _, reads⟩ := exists_ok_of_bind reads
  obtain ⟨last, compiled, reads⟩ := exists_ok_of_bind reads
  cases read
  cases reads
  exact ⟨rfl, compiled⟩

namespace Grammar

/-- Whether the span that a reference names may run over several lines, if it is declared. -/
def multiline? (grammar : Grammar) (ref : SpanRef) : Option Bool :=
  (grammar.span? ref).map Span.multiline

/-- Whether every span that may not run over several lines closes, as one read by `Span.readSingleLine`
does, at the end of its line if not before. -/
def LineBound (grammar : Grammar) : Prop :=
  ∀ ruleSet ∈ grammar.ruleSets, ∀ span ∈ ruleSet.spans, span.multiline = false →
    ∃ closing, Pattern.compile (Pattern.orTextEnd closing) = .ok span.closing

/-- Whether no span that may run over several lines can be opened inside of one that may not. -/
def Confined (grammar : Grammar) : Prop :=
  ∀ ruleSet ∈ grammar.ruleSets, ∀ span ∈ ruleSet.spans, span.multiline = false →
    ∀ inner ∈ (grammar.resolve span.inner).spans, inner.multiline = false

instance (grammar : Grammar) : Decidable grammar.Confined :=
  inferInstanceAs (Decidable (∀ ruleSet ∈ grammar.ruleSets, ∀ span ∈ ruleSet.spans, _ → _))

variable {grammar : Grammar} {ref : SpanRef} {span : Span}

theorem exists_ruleSet_of_span? (declared : grammar.span? ref = some span) :
    ∃ ruleSet ∈ grammar.ruleSets, span ∈ ruleSet.spans := by
  obtain ⟨ruleSet, known, listed⟩ := Option.bind_eq_some_iff.mp declared
  exact ⟨ruleSet, List.mem_of_getElem? known, List.mem_of_getElem? listed⟩

theorem LineBound.closes (bound : grammar.LineBound) (declared : grammar.span? ref = some span)
    (single : span.multiline = false) : span.closing.Closes := by
  obtain ⟨ruleSet, known, listed⟩ := exists_ruleSet_of_span? declared
  obtain ⟨closing, compiled⟩ := bound ruleSet known span listed single
  exact Pattern.closes_of_compile compiled

/-- Whether every span inside of one that may not run over several lines may not either. -/
def Layered (grammar : Grammar) (stack : SpanStack) : Prop :=
  stack.Pairwise fun inner outer =>
    grammar.multiline? outer = some false → grammar.multiline? inner = some false

/-- A confined grammar opens only such spans inside of one that may not run over several lines. -/
theorem Layered.push {stack : SpanStack} (layered : grammar.Layered stack)
    (confined : grammar.Confined) (declared : grammar.span? ref = some span)
    (listed : span ∈ (grammar.active stack).spans) : grammar.Layered (stack.push ref) := by
  refine List.pairwise_cons.mpr ⟨fun outer member single => ?_, layered⟩
  rw [multiline?, declared, Option.map_some]
  cases stack with
  | nil => cases member
  | cons top rest =>
      -- The innermost span may not run over several lines, for it is `outer` or lies inside of it.
      have innermost : grammar.multiline? top = some false := by
        rcases List.mem_cons.mp member with rfl | below
        · exact single
        · exact (List.pairwise_cons.mp layered).1 outer below single
      obtain ⟨around, known, within⟩ := Option.map_eq_some_iff.mp innermost
      obtain ⟨ruleSet, numbered, inside⟩ := exists_ruleSet_of_span? known
      rw [active, activeId, known, Option.bind_some] at listed
      rw [confined ruleSet numbered around inside within span listed]

end Grammar

namespace Scan.DirectWalk

variable {grammar : Grammar} {text : List Char} {walk next last : DirectWalk}

/-- Where a walk ends, the innermost open span may run over several lines. -/
theorem multiline_of_step_none (bound : grammar.LineBound)
    (inside : walk.position ≤ Text.byteLength text) (ends : walk.step grammar text = .ok none)
    {top : SpanRef} {rest : SpanStack} (stack : walk.stack = top :: rest) :
    grammar.multiline? top ≠ some false := by
  intro single
  obtain ⟨span, declared, same⟩ := Option.map_eq_some_iff.mp single
  exact not_closes_of_step_none inside ends stack declared (bound.closes declared same)

/-- What holds of the stack along a line: all of its spans are declared, and in a confined grammar those
that may not run over several lines hold only such spans. -/
structure Sorted (grammar : Grammar) (walk : DirectWalk) : Prop where
  declared : ∀ ref ∈ walk.stack, (grammar.multiline? ref).isSome
  layered : grammar.Confined → grammar.Layered walk.stack

/-- A step keeps the stack sorted: what it opens is declared, and allowed inside of what is open. -/
theorem Sorted.step (sorted : walk.Sorted grammar)
    (stepped : walk.step grammar text = .ok (some next)) : next.Sorted grammar := by
  obtain ⟨_, ⟨ref, span, _, declared, listed, stack⟩ | ⟨top, stack⟩⟩ := step_cases stepped
  · refine ⟨?_, fun confined => ?_⟩
    · rw [stack]
      refine List.forall_mem_cons.mpr ⟨?_, sorted.declared⟩
      rw [Grammar.multiline?, declared]
      rfl
    · rw [stack]
      exact (sorted.layered confined).push confined declared listed
  · refine ⟨?_, fun confined => ?_⟩
    · exact (List.forall_mem_cons.mp (stack ▸ sorted.declared)).2
    · exact (List.pairwise_cons.mp (stack ▸ sorted.layered confined)).2

end Scan.DirectWalk

namespace Grammar

open Scan

variable {grammar : Grammar} {stack final rest : SpanStack} {top : SpanRef}

/-- The walk of which the stack at the end of a line is read. -/
theorem exists_sorted_of_scanLine {text : String}
    (multiline : ∀ ref ∈ stack, grammar.multiline? ref = some true)
    (scanned : grammar.scanLine stack text = .ok final) :
    ∃ last : DirectWalk, last.stack = final ∧ last.Sorted grammar ∧
      last.position ≤ Text.byteLength text.toList ∧ last.step grammar text.toList = .ok none := by
  refine exists_last_of_scanLine _ (fun walk next => DirectWalk.Sorted.step) ?_ scanned
  refine ⟨fun ref member => ?_, fun _ => ?_⟩
  · rw [multiline ref member]
    rfl
  · refine List.pairwise_of_forall_mem_list fun inner _ outer member single => ?_
    have several := multiline outer member
    rw [single] at several
    cases several

/-- A span that a line leaves open innermost may run over several lines. -/
theorem multiline_of_scanLine (bound : grammar.LineBound)
    (multiline : ∀ ref ∈ stack, grammar.multiline? ref = some true) {text : String}
    (scanned : grammar.scanLine stack text = .ok (top :: rest)) :
    grammar.multiline? top = some true := by
  obtain ⟨last, stack, sorted, inside, stops⟩ := exists_sorted_of_scanLine multiline scanned
  obtain ⟨value, same⟩ :=
    Option.isSome_iff_exists.mp (sorted.declared top (stack ▸ List.mem_cons_self))
  cases value with
  | false => exact absurd same (DirectWalk.multiline_of_step_none bound inside stops stack)
  | true => exact same

/-- In a confined grammar so may every span that a line leaves open. -/
theorem forall_multiline_of_scanLine (bound : grammar.LineBound) (confined : grammar.Confined)
    (multiline : ∀ ref ∈ stack, grammar.multiline? ref = some true) {text : String}
    (scanned : grammar.scanLine stack text = .ok final) :
    ∀ ref ∈ final, grammar.multiline? ref = some true := by
  cases final with
  | nil => exact nofun
  | cons top rest =>
      have innermost := multiline_of_scanLine bound multiline scanned
      obtain ⟨last, stack, sorted, -⟩ := exists_sorted_of_scanLine multiline scanned
      refine List.forall_mem_cons.mpr ⟨innermost, fun ref below => ?_⟩
      obtain ⟨value, same⟩ :=
        Option.isSome_iff_exists.mp (sorted.declared ref (stack ▸ List.mem_cons_of_mem _ below))
      cases value with
      | true => exact same
      | false =>
          have layered := stack ▸ sorted.layered confined
          have inside := (List.pairwise_cons.mp layered).1 ref below same
          exact absurd (innermost.symm.trans inside) (by decide)

end Grammar

/-! ## The built-in grammars -/

namespace Languages

open Grammar

/-- The closing patterns of the spans that may not run over several lines. -/
def lineClosings (grammar : Grammar) : List Pattern :=
  grammar.ruleSets.flatMap fun ruleSet =>
    (ruleSet.spans.filter fun span => !span.multiline).map Span.closing

/-- The patterns at which spans within a line close are read with the end of the text as an alternative. -/
theorem exists_compile_eq :
    ∀ pattern ∈ [lineEnd, quoteOrLineEnd, apostropheOrLineEnd, escaped, Python.fieldClosing],
      ∃ closing, Pattern.compile (Pattern.orTextEnd closing) = .ok pattern := by
  simp only [List.forall_mem_cons]
  exact ⟨⟨"$", Pattern.compile_eq_literal _ _ _⟩, ⟨"\"", Pattern.compile_eq_literal _ _ _⟩,
    ⟨"'", Pattern.compile_eq_literal _ _ _⟩, ⟨".", Pattern.compile_eq_literal _ _ _⟩,
    ⟨"\\\x7d", Pattern.compile_eq_literal _ _ _⟩, nofun⟩

/-- The closing patterns do not depend on the styles. -/
theorem lineClosings_all (theme : Theme) :
    (all theme).map lineClosings = (all .standard).map lineClosings :=
  rfl

theorem isAmong_of_mem_lineClosings :
    ∀ closings ∈ (all .standard).map lineClosings, ∀ pattern ∈ closings,
      pattern.isAmong
        [lineEnd, quoteOrLineEnd, apostropheOrLineEnd, escaped, Python.fieldClosing] = true := by
  decide +kernel

/-- The spans of the built-in grammars that stay on their line do close at its end. -/
theorem lineBound_of_mem_all {theme : Theme} {grammar : Grammar} (builtIn : grammar ∈ all theme) :
    grammar.LineBound := by
  intro ruleSet numbered span listed single
  apply exists_compile_eq
  apply Pattern.mem_of_isAmong
  apply isAmong_of_mem_lineClosings (lineClosings grammar)
  · rw [← lineClosings_all theme]
    exact List.mem_map_of_mem builtIn
  · refine List.mem_flatMap.mpr ⟨ruleSet, numbered, List.mem_map_of_mem ?_⟩
    exact List.mem_filter.mpr ⟨listed, by rw [single]; rfl⟩

/-- A replacement field of Python holds all that the main rule set does; in the other grammars a span that
may not run over several lines holds only such spans. -/
theorem confined_of_mem {theme : Theme} {grammar : Grammar}
    (builtIn : grammar ∈ [Rust.grammar theme, CFamily.grammar theme, Toml.grammar theme]) :
    grammar.Confined := by
  rcases List.mem_cons.mp builtIn with rfl | others
  · exact of_decide_eq_true rfl
  · rcases List.mem_cons.mp others with rfl | others
    · exact of_decide_eq_true rfl
    · rw [List.mem_singleton.mp others]
      exact of_decide_eq_true rfl

/-- **The Rust, C and TOML grammars** leave no span open that may not run over several lines. -/
theorem forall_multiline_of_mem {theme : Theme} {grammar : Grammar}
    (builtIn : grammar ∈ [Rust.grammar theme, CFamily.grammar theme, Toml.grammar theme])
    {stack final : SpanStack} (multiline : ∀ ref ∈ stack, grammar.multiline? ref = some true)
    {text : String} (scanned : grammar.scanLine stack text = .ok final) :
    ∀ ref ∈ final, grammar.multiline? ref = some true := by
  have listed : grammar ∈ all theme := by
    simp only [all, List.mem_cons] at builtIn ⊢
    rcases builtIn with rust | c | toml | absent
    · exact .inl rust
    · exact .inr (.inl c)
    · exact .inr (.inr (.inr (.inl toml)))
    · cases absent
  exact forall_multiline_of_scanLine (lineBound_of_mem_all listed) (confined_of_mem builtIn)
    multiline scanned

end Languages

namespace Grammar

variable {grammar : Grammar} {stack final : SpanStack}

/-- **Single-line spans.** A line that starts inside of spans that may run over several lines leaves one
that may not open only with one inside of it that may, and none where no such span can be opened inside of
it. -/
theorem singleLine_left_open (bound : grammar.LineBound)
    (multiline : ∀ ref ∈ stack, grammar.multiline? ref = some true) {text : String}
    (ends : grammar.scanLine stack text = .ok final ∨
      ∃ number offset line, grammar.highlightLine stack number offset text = .ok (line, final)) :
    (∀ ref ∈ final, grammar.multiline? ref = some false →
      ∃ inner rest, final = inner :: rest ∧ ref ∈ rest ∧ grammar.multiline? inner = some true) ∧
    (grammar.Confined → ∀ ref ∈ final, grammar.multiline? ref = some true) := by
  have scanned : grammar.scanLine stack text = .ok final := by
    rcases ends with scanned | ⟨number, offset, line, highlighted⟩
    · exact scanned
    · exact (strokes_of_highlightLine highlighted).1
  refine ⟨fun ref member single => ?_, fun confined =>
    forall_multiline_of_scanLine bound confined multiline scanned⟩
  cases final with
  | nil => cases member
  | cons top rest =>
      have innermost := multiline_of_scanLine bound multiline scanned
      rcases List.mem_cons.mp member with rfl | below
      · exact absurd (innermost.symm.trans single) (by decide)
      · exact ⟨top, rest, rfl, below, innermost⟩

/-- After the end of a string that the lines before have opened, one that is opened inside of a replacement
field holds the field, and the string around it, open. -/
theorem singleLine_left_open_field :
    (Languages.Python.grammar .standard).scanLine [⟨0, 1⟩] "\"\"\"f\"\x7b\"\"\"" =
        .ok [⟨0, 1⟩, ⟨2, 1⟩, ⟨0, 3⟩] ∧
      ∃ inner rest, [⟨0, 1⟩, ⟨2, 1⟩, ⟨0, 3⟩] = inner :: rest ∧ ⟨2, 1⟩ ∈ rest ∧
        (Languages.Python.grammar .standard).multiline? inner = some true :=
  have builtIn : Languages.Python.grammar .standard ∈ Languages.all .standard :=
    List.mem_cons_of_mem _ (List.mem_cons_of_mem _ List.mem_cons_self)
  have multiline : ∀ ref ∈ [⟨0, 1⟩],
      (Languages.Python.grammar .standard).multiline? ref = some true := by
    decide +kernel
  have scanned : (Languages.Python.grammar .standard).scanLine [⟨0, 1⟩] "\"\"\"f\"\x7b\"\"\"" =
      .ok [⟨0, 1⟩, ⟨2, 1⟩, ⟨0, 3⟩] := by
    decide +kernel
  ⟨scanned,
    (singleLine_left_open (Languages.lineBound_of_mem_all builtIn) multiline (.inl scanned)).1
      ⟨2, 1⟩ (by decide) (by decide +kernel)⟩

/-- Neither the field nor the string around it closes at the end of its line, though neither may run over
several lines. -/
theorem field_crosses_line_end :
    (Languages.Python.grammar .standard).LineBound ∧
      ∃ final, (Languages.Python.grammar .standard).scanLine [] "f\"\x7b\"\"\"" = .ok final ∧
        ⟨2, 1⟩ ∈ final ∧ (Languages.Python.grammar .standard).multiline? ⟨2, 1⟩ = some false ∧
        ⟨0, 3⟩ ∈ final ∧ (Languages.Python.grammar .standard).multiline? ⟨0, 3⟩ = some false :=
  have builtIn : Languages.Python.grammar .standard ∈ Languages.all .standard :=
    List.mem_cons_of_mem _ (List.mem_cons_of_mem _ List.mem_cons_self)
  ⟨Languages.lineBound_of_mem_all builtIn, [⟨0, 1⟩, ⟨2, 1⟩, ⟨0, 3⟩], by decide +kernel, by decide,
    by decide +kernel, by decide, by decide +kernel⟩

end Grammar

end Highlight
