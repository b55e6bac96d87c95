import Highlight.Grammar.Basic
import Highlight.Scan.Painter
import Highlight.Scan.Pending
import Highlight.Text.Bytes

/-! # Applying rules

The text between two span delimiters is styled by the rules of the active rule set. The rule that matches
first styles its match, and the search goes on behind it. Rules see the text only up to the next
delimiter.
-/

namespace Highlight.Scan

/-- How a grammar may prove malformed while a line is scanned. -/
inductive Fault where
  | emptyRule (pattern : String)
  | emptySpan (opening closing : String)
  deriving DecidableEq

/-- A description of the fault. -/
def Fault.message : Fault → String
  | emptyRule pattern =>
    "Malformed grammar: rule matched zero characters (pattern: " ++ pattern ++ ")"
  | emptySpan opening closing =>
    "Malformed grammar: span matched zero characters (start: " ++ opening ++ ", end: " ++ closing ++
      ")"

/-- Styles the matches of the rules in `text` from `position` on. The first argument bounds the number of
matches, each of which takes up at least one byte. -/
def applyRules (rules : List Rule) (text : List Char) :
    Nat → Nat → List Pending → Painter → Except Fault Painter
  | 0, _, _, painter => .ok painter
  | bound + 1, position, pending, painter =>
    let pending := refreshAll (rules.map Rule.pattern) text position pending
    match earliest? pending with
    | none => .ok painter
    | some (index, hit) =>
      match rules[index]? with
      | none => .ok painter
      | some rule =>
        if hit.isEmpty then .error (.emptyRule rule.pattern.source)
        else
          applyRules rules text bound hit.stop pending
            (painter.paint rule.style hit.start hit.stop)

/-- Styles bytes `start` up to `stop` of `text` by the rules. -/
def paintRules (rules : List Rule) (text : List Char) (start stop : Nat) (painter : Painter) :
    Except Fault Painter :=
  if stop ≤ start then .ok painter
  else
    applyRules rules (Text.takeBytes stop text) (stop - start + 1) start
      (rules.map fun _ => .unknown) painter

end Highlight.Scan
