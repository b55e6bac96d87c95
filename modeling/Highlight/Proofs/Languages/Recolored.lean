import Highlight.Languages.Basic
import Highlight.Proofs.Scan.Restyled

/-! # Themes only recolor

A theme styles the rules and spans of the built-in grammars and does nothing else in them: with two themes
the built-in grammars differ in their styles only. Every line is therefore scanned alike with both, and its
bytes change their styles kind by kind (`Highlight.Languages.styles_never_steer`).
-/

namespace Highlight

/-- Two styles that two themes have for one kind of token. -/
def Theme.Paired (theme other : Theme) (style partner : Style) : Prop :=
  ∃ kind, style = theme.token kind ∧ partner = other.token kind

namespace Languages

variable (theme other : Theme)

theorem token_paired (kind : TokenKind) :
    Option.Rel (theme.Paired other) (some (theme.token kind)) (some (other.token kind)) :=
  .some ⟨kind, rfl, rfl⟩

/-! ## Shared parts -/

@[simp] theorem rule_restyled (pattern : Pattern) (kind : TokenKind) :
    (rule theme pattern kind).Restyled (theme.Paired other) (rule other pattern kind) :=
  ⟨rfl, token_paired theme other kind⟩

@[simp] theorem tokenSpan_restyled (pattern : Pattern) (kind : TokenKind) :
    (tokenSpan theme pattern kind).Restyled (theme.Paired other) (tokenSpan other pattern kind) :=
  ⟨rfl, rfl, token_paired theme other kind, .none, .none, rfl, rfl, rfl, rfl⟩

@[simp] theorem lineComment_restyled (opening : Pattern) (inner : Option Nat) :
    (lineComment theme opening inner).Restyled (theme.Paired other)
      (lineComment other opening inner) :=
  ⟨rfl, rfl, .none, token_paired theme other .comment, .none, rfl, rfl, rfl, rfl⟩

@[simp] theorem lineString_restyled (opening closing : Pattern) (inner : Option Nat) :
    (lineString theme opening closing inner).Restyled (theme.Paired other)
      (lineString other opening closing inner) :=
  ⟨rfl, rfl, .none, token_paired theme other .string, .none, rfl, rfl, rfl, rfl⟩

@[simp] theorem openString_restyled (opening closing : Pattern) (inner : Option Nat) :
    (openString theme opening closing inner).Restyled (theme.Paired other)
      (openString other opening closing inner) :=
  ⟨rfl, rfl, .none, token_paired theme other .string, .none, rfl, rfl, rfl, rfl⟩

theorem commentMarkers_restyled :
    (commentMarkers theme).Restyled (theme.Paired other) (commentMarkers other) :=
  ⟨.cons (rule_restyled theme other markerWord .marker) .nil, .nil⟩

theorem escapes_spans_restyled :
    List.Forall₂ (Span.Restyled (theme.Paired other)) (escapes theme).spans (escapes other).spans :=
  .cons ⟨rfl, rfl, .none, token_paired theme other .special, .none, rfl, rfl, rfl, rfl⟩ .nil

theorem escapes_restyled : (escapes theme).Restyled (theme.Paired other) (escapes other) :=
  ⟨.nil, escapes_spans_restyled theme other⟩

@[simp] theorem CFamily.blockComment_restyled :
    (CFamily.blockComment theme).Restyled (theme.Paired other) (CFamily.blockComment other) :=
  ⟨rfl, rfl, .none, token_paired theme other .comment, .none, rfl, rfl, rfl, rfl⟩

@[simp] theorem Rust.blockComment_restyled :
    (Rust.blockComment theme).Restyled (theme.Paired other) (Rust.blockComment other) :=
  ⟨rfl, rfl, .none, token_paired theme other .comment, .none, rfl, rfl, rfl, rfl⟩

theorem Rust.commentBody_restyled :
    (Rust.commentBody theme).Restyled (theme.Paired other) (Rust.commentBody other) :=
  ⟨(commentMarkers_restyled theme other).rules, .cons (Rust.blockComment_restyled theme other) .nil⟩

theorem Python.formatBody_restyled :
    (Python.formatBody theme).Restyled (theme.Paired other) (Python.formatBody other) := by
  have special := token_paired theme other .special
  have field : (Python.field theme).Restyled (theme.Paired other) (Python.field other) :=
    ⟨rfl, rfl, special, .none, special, rfl, rfl, rfl, rfl⟩
  exact ⟨.nil, List.rel_append (escapes_spans_restyled theme other) (.cons field .nil)⟩

/-! ## The grammars -/

theorem Rust.grammar_restyled :
    (Rust.grammar theme).Restyled (theme.Paired other) (Rust.grammar other) := by
  have main : (Rust.grammar theme).main.Restyled (theme.Paired other) (Rust.grammar other).main := by
    constructor <;> simp [Rust.grammar]
  exact .cons main (.cons (escapes_restyled theme other) (.cons (commentMarkers_restyled theme other)
    (.cons (Rust.commentBody_restyled theme other) .nil)))

theorem CFamily.grammar_restyled :
    (CFamily.grammar theme).Restyled (theme.Paired other) (CFamily.grammar other) := by
  have main : (CFamily.grammar theme).main.Restyled (theme.Paired other)
      (CFamily.grammar other).main := by
    constructor <;> simp [CFamily.grammar]
  exact .cons main (.cons (escapes_restyled theme other)
    (.cons (commentMarkers_restyled theme other) .nil))

theorem Python.grammar_restyled :
    (Python.grammar theme).Restyled (theme.Paired other) (Python.grammar other) := by
  have main : (Python.grammar theme).main.Restyled (theme.Paired other)
      (Python.grammar other).main := by
    constructor <;> simp [Python.grammar]
  exact .cons main (.cons (escapes_restyled theme other)
    (.cons (Python.formatBody_restyled theme other) .nil))

theorem Toml.grammar_restyled :
    (Toml.grammar theme).Restyled (theme.Paired other) (Toml.grammar other) := by
  have main : (Toml.grammar theme).main.Restyled (theme.Paired other) (Toml.grammar other).main := by
    constructor <;> simp [Toml.grammar]
  exact .cons main (.cons (escapes_restyled theme other) .nil)

/-- **Styles never steer a scan.** Grammars that are the same but for their styles, which are related place
by place, scan every line alike, and the styles that are shown at a byte are related as those of the
grammars. A built-in grammar with another theme only recolors the text. -/
theorem styles_never_steer :
    (∀ (related : Style → Style → Prop) (grammar partner : Grammar),
        grammar.Restyled related partner → grammar.ScansAlike related partner) ∧
      ∀ theme other : Theme,
        List.Forall₂ (Grammar.ScansAlike (theme.Paired other)) (all theme) (all other) := by
  refine ⟨fun _ _ _ restyled => restyled.scansAlike, fun theme other => ?_⟩
  have builtIn : List.Forall₂ (Grammar.Restyled (theme.Paired other)) (all theme) (all other) :=
    .cons (Rust.grammar_restyled theme other) (.cons (CFamily.grammar_restyled theme other)
      (.cons (Python.grammar_restyled theme other) (.cons (Toml.grammar_restyled theme other) .nil)))
  exact builtIn.imp fun _ _ restyled => restyled.scansAlike

/-- The standard theme with comments in the style of strings. -/
def evenTheme : Theme := Theme.standard.set "Comment" (Theme.standard.token .string)

/-- A string and the comment right behind it are two sections, and one where their styles are the same. -/
theorem styles_never_steer_touching :
    (Toml.grammar .standard).Restyled (Theme.standard.Paired evenTheme) (Toml.grammar evenTheme) ∧
      (((Toml.grammar .standard).highlightLine [] 1 0 "\"a\"#b").map (·.1.sections.length) = .ok 2 ∧
        ((Toml.grammar evenTheme).highlightLine [] 1 0 "\"a\"#b").map (·.1.sections.length) =
          .ok 1) ∧
      (Toml.grammar .standard).ScansAlike (Theme.standard.Paired evenTheme)
        (Toml.grammar evenTheme) := by
  have restyled := Toml.grammar_restyled .standard evenTheme
  exact ⟨restyled, by decide +kernel, styles_never_steer.1 _ _ _ restyled⟩

end Languages

end Highlight
