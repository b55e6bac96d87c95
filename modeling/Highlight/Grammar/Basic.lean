import Highlight.Grammar.Stack
import Highlight.Pattern.Basic
import Highlight.Style.Theme

/-! # Grammars

A grammar is a numbered collection of rule sets. A rule styles single matches. A span is a bracketed
construct that may run over several lines; while it is open, the rule set it names is active, and where
it names none, nothing is matched but its closing pattern. Rule sets refer to one another by number, so
a grammar may be recursive. Number 0 is the main rule set, active where no span is open.
-/

namespace Highlight

/-- A pattern for a single run of text. A rule without a style consumes the text unstyled. -/
structure Rule where
  pattern : Pattern
  style : Option Style

/-- A construct between an opening and a closing pattern. The body style may or may not reach over the
delimiters, whose own styles lie over it. -/
structure Span where
  opening : Pattern
  closing : Pattern
  openStyle : Option Style := none
  bodyStyle : Option Style := none
  closeStyle : Option Style := none
  inner : Option Nat := none
  multiline : Bool := true
  bodyCoversOpen : Bool := true
  bodyCoversClose : Bool := true

namespace Span

/-- Reads a span that may run over several lines. -/
def read (opening closing : String) : Except Pattern.Fault Span := do
  return { opening := ← Pattern.compile opening, closing := ← Pattern.compile closing }

/-- Reads a span that closes at the end of its line if it has not closed before. -/
def readSingleLine (opening closing : String) : Except Pattern.Fault Span := do
  let span ← read opening (Pattern.orTextEnd closing)
  return { span with multiline := false }

end Span

/-- Rules and spans that are active together; of two that match at one place the earlier counts. -/
structure RuleSet where
  name : String
  rules : List Rule := []
  spans : List Span := []

namespace RuleSet

/-- The rule set that is active where none is named. -/
def empty : RuleSet := { name := "empty" }

/-- Whether there is neither a rule nor a span. -/
def isEmpty (ruleSet : RuleSet) : Bool := ruleSet.rules.isEmpty && ruleSet.spans.isEmpty

end RuleSet

/-- A language's rule sets, file extensions and named styles. -/
structure Grammar where
  name : String
  extensions : List String := []
  main : RuleSet := { name := name }
  nested : List RuleSet := []
  theme : Theme := .standard

namespace Grammar

/-- All rule sets in the order of their numbers. -/
def ruleSets (grammar : Grammar) : List RuleSet := grammar.main :: grammar.nested

/-- The rule set with the given number. -/
def ruleSet? (grammar : Grammar) (id : Nat) : Option RuleSet := grammar.ruleSets[id]?

/-- The rule set with the given number, empty where there is no number or no such set. -/
def resolve (grammar : Grammar) (id : Option Nat) : RuleSet :=
  (id.bind grammar.ruleSet?).getD .empty

/-- The declaration that a reference names. -/
def span? (grammar : Grammar) (ref : SpanRef) : Option Span := do
  (← grammar.ruleSet? ref.ruleSet).spans[ref.index]?

/-- The number of the rule set that is active inside the open spans, if they name one. -/
def activeId (grammar : Grammar) : SpanStack → Option Nat
  | [] => some 0
  | top :: _ => (grammar.span? top).bind Span.inner

/-- The rule set that is active inside the open spans. -/
def active (grammar : Grammar) (stack : SpanStack) : RuleSet :=
  grammar.resolve (grammar.activeId stack)

/-- The style with the given name in the grammar's theme. -/
def namedStyle? (grammar : Grammar) (name : String) : Option Style := grammar.theme.get? name

/-- The style of a token kind in the grammar's theme. -/
def tokenStyle (grammar : Grammar) (kind : TokenKind) : Style := grammar.theme.token kind

end Grammar

end Highlight
