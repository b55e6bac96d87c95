import Highlight.Proofs.Scan.Origin
import Highlight.Proofs.Session.Replay

/-! # Lines that have moved

A line that has moved up or down in its document is shown as before, at its new place, if it starts inside
of the same spans as before (`Highlight.Grammar.highlights_alike_anywhere`). It then leaves the same spans
open, so that the lines below it are shown as before, too.
-/

namespace Highlight

/-- Whether two lines are the same but for where they lie: their sections and their runs agree, counted from
the start of the line. -/
structure StyledLine.Aligned (line other : StyledLine) : Prop where
  length : line.length = other.length
  sections : line.relative = other.relative
  runs : line.relativeRuns = other.relativeRuns

namespace Grammar

variable {grammar : Grammar} {initial : SpanStack}

/-- Two places of documents at which a text is highlighted. The outcomes differ in where the lines lie. -/
theorem highlightLine_agrees (grammar : Grammar) (stack : SpanStack) (text : String)
    (number offset otherNumber otherOffset : Nat) :
    Agree (fun (first : StyledLine × SpanStack) second => first.2 = second.2 ∧
        first.1.offset = offset ∧ second.1.offset = otherOffset ∧ first.1.Aligned second.1)
      (grammar.highlightLine stack number offset text)
      (grammar.highlightLine stack otherNumber otherOffset text) := by
  cases base : grammar.highlightLine stack 0 0 text with
  | error fault =>
      rw [highlightLine_eq_move, highlightLine_eq_move _ _ _ otherNumber, base]
      exact .error fault
  | ok result =>
      obtain ⟨line, final⟩ := result
      have start : line.offset = 0 := by
        obtain ⟨_, strokes, _, rfl⟩ := strokes_of_highlightLine base
        rfl
      have placed : ∀ number offset, (line.move number offset).offset = offset := by
        intro number offset
        rw [StyledLine.move, start]
        exact Nat.zero_add offset
      rw [highlightLine_eq_move, highlightLine_eq_move _ _ _ otherNumber, base]
      refine .ok ⟨rfl, placed _ _, placed _ _, rfl, ?_, ?_⟩
      · rw [StyledLine.relative_move, StyledLine.relative_move]
      · rw [StyledLine.relativeRuns_move, StyledLine.relativeRuns_move]

/-- The stack at the end of a line comes from the one before it also where that cannot be found. -/
theorem freshStack_eq_bind {document : Document} {line : Nat} (positive : 1 ≤ line)
    (inside : line ≤ document.lineCount) :
    grammar.freshStack initial document line =
      (grammar.freshStack initial document (line - 1)).bind fun input =>
        grammar.scanLine input (document.line line) := by
  cases before : grammar.freshStack initial document (line - 1) with
  | error fault => exact freshStack_of_error (Nat.sub_le line 1) before
  | ok input => exact freshStack_of_before positive inside before

/-- Whether a line of one document is what the line after it in number is in another one: both are shown
alike, and leave the same spans open. -/
structure Carried (grammar : Grammar) (initial : SpanStack) (shorter longer : Document) (line : Nat) :
    Prop where
  shown : Agree StyledLine.Aligned (grammar.freshLine initial shorter line)
    (grammar.freshLine initial longer (line + 1))
  left : grammar.freshStack initial longer (line + 1) = grammar.freshStack initial shorter line

section Carried

variable {shorter longer : Document} {line : Nat}

/-- A line with the same text that starts inside of the same spans. -/
theorem carried_of_input (positive : 1 ≤ line) (inside : line ≤ shorter.lineCount)
    (grown : longer.lineCount = shorter.lineCount + 1)
    (text : longer.line (line + 1) = shorter.line line)
    (input : grammar.freshStack initial longer line = grammar.freshStack initial shorter (line - 1)) :
    grammar.Carried initial shorter longer line := by
  constructor
  · rw [freshLine, freshLine, Nat.add_sub_cancel, input, text]
    cases grammar.freshStack initial shorter (line - 1) with
    | error fault => exact .error fault
    | ok stack =>
        have alike := highlightLine_agrees grammar stack (shorter.line line) line
          (shorter.startOffset line) (line + 1) (longer.startOffset (line + 1))
        exact alike.map fun _ _ same => same.2.2.2
  · have below : line + 1 ≤ longer.lineCount := by
      rw [grown]
      exact Nat.succ_le_succ inside
    rw [freshStack_eq_bind (Nat.le_add_left 1 line) below, Nat.add_sub_cancel, input, text,
      ← freshStack_eq_bind positive inside]

/-- From a line on that starts inside of the same spans all lines are carried along, by induction on how far
below it they are. -/
theorem carried_of_le (positive : 1 ≤ line) (grown : longer.lineCount = shorter.lineCount + 1)
    (text : ∀ place, line ≤ place → longer.line (place + 1) = shorter.line place)
    (input : grammar.freshStack initial longer line = grammar.freshStack initial shorter (line - 1))
    {place : Nat} (below : line ≤ place) (inside : place ≤ shorter.lineCount) :
    grammar.Carried initial shorter longer place := by
  induction below with
  | refl => exact carried_of_input positive inside grown (text line (Nat.le_refl line)) input
  | @step place below ih =>
      have above := ih (Nat.le_of_succ_le inside)
      exact carried_of_input (Nat.le_add_left 1 place) inside grown
        (text (place + 1) (Nat.le_succ_of_le below)) above.left

end Carried

/-- **A line is highlighted alike everywhere.** For every grammar, every stack and every text, a line with
any number at any offset fails with the same fault or ends inside of the same spans, and its sections and
runs are the same, counted from the start of the line. So if a line is inserted or removed above a line that
still starts inside of the same spans, this line and all those below it are carried along. -/
theorem highlights_alike_anywhere (grammar : Grammar) :
    (∀ stack text number offset otherNumber otherOffset,
      Agree (fun (first : StyledLine × SpanStack) second => first.2 = second.2 ∧
          first.1.offset = offset ∧ second.1.offset = otherOffset ∧ first.1.Aligned second.1)
        (grammar.highlightLine stack number offset text)
        (grammar.highlightLine stack otherNumber otherOffset text)) ∧
    ∀ initial shorter longer line,
      ((∃ after text, shorter.insertLine? after text = some longer ∧ after < line) ∨
        ∃ removed, longer.removeLine? removed = some shorter ∧ removed ≤ line) →
      grammar.freshStack initial longer line = grammar.freshStack initial shorter (line - 1) →
      ∀ place, line ≤ place → place ≤ shorter.lineCount →
        grammar.Carried initial shorter longer place := by
  refine ⟨grammar.highlightLine_agrees, ?_⟩
  rintro initial shorter longer line (⟨after, text, inserted, above⟩ | ⟨removed, dropped, above⟩)
    input place below inside
  · obtain ⟨_, grown⟩ := Document.lineCount_of_insertLine? inserted
    refine carried_of_le (by omega) grown (fun place below => ?_) input below inside
    rw [Document.line_of_insertLine? inserted, if_neg (by omega), if_neg (by omega),
      Nat.add_sub_cancel]
  · obtain ⟨positive, _, shrunk⟩ := Document.lineCount_of_removeLine? dropped
    refine carried_of_le (Nat.le_trans positive above) shrunk.symm (fun place below => ?_) input
      below inside
    rw [Document.line_of_removeLine? dropped (by omega), if_neg (by omega)]

/-- A line is inserted above a string of three lines, of which the second is shown as before. -/
theorem highlights_alike_anywhere_in_string :
    let grammar := Languages.Toml.grammar .standard
    let shorter : Document := .ofLines ["k = \"\"\"", "v", "\"\"\""]
    let longer : Document := .ofLines ["[t]", "k = \"\"\"", "v", "\"\"\""]
    shorter.insertLine? 0 "[t]" = some longer ∧
      grammar.freshStack [] longer 1 = grammar.freshStack [] shorter 0 ∧
      grammar.Carried [] shorter longer 2 ∧
      grammar.freshLine [] longer 3 = .ok ⟨3, 12, 1, [⟨12, 1, Theme.standard.token .string⟩]⟩ := by
  intro grammar shorter longer
  have inserted : shorter.insertLine? 0 "[t]" = some longer := rfl
  have input : grammar.freshStack [] longer 1 = grammar.freshStack [] shorter 0 := by
    decide +kernel
  have carried : grammar.Carried [] shorter longer 2 := by
    apply (highlights_alike_anywhere grammar).2 [] shorter longer 1
    · exact .inl ⟨0, "[t]", inserted, Nat.one_pos⟩
    · exact input
    · exact Nat.le_succ 1
    · exact Nat.le_succ 2
  exact ⟨inserted, input, carried, by decide +kernel⟩

end Grammar

end Highlight
