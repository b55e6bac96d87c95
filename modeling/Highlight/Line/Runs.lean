import Highlight.Line.Section

/-! # Flat runs

The nested sections of a line, flattened into disjoint runs. Each run carries the styles of all sections
that enclose it, laid over one another from the outermost inwards. Text outside of every section belongs
to no run, and neighboring runs of equal style are joined.
-/

namespace Highlight

/-- A stretch of text with its effective style. -/
structure StyledRun where
  offset : Nat
  length : Nat
  style : Style
  deriving DecidableEq

namespace StyledRun

/-- The offset just past the last byte. -/
def stop (run : StyledRun) : Nat := run.offset + run.length

/-- Whether a byte belongs to the run. -/
def contains (run : StyledRun) (offset : Nat) : Bool := run.offset ≤ offset && offset < run.stop

end StyledRun

/-- Runs collected from left to right, the latest first, and the offset up to which the line has been
dealt with. -/
structure RunWriter where
  runs : List StyledRun
  position : Nat

namespace RunWriter

/-- Extends the runs up to `stop` with text of one style. -/
def write (writer : RunWriter) (stop : Nat) (style : Style) : RunWriter :=
  if stop ≤ writer.position then
    writer
  else
    let run : StyledRun := ⟨writer.position, stop - writer.position, style⟩
    match writer.runs with
    | last :: earlier =>
      if last.style = style ∧ last.stop = writer.position then
        ⟨{ last with length := last.length + run.length } :: earlier, stop⟩
      else
        ⟨run :: last :: earlier, stop⟩
    | [] => ⟨[run], stop⟩

/-- Closes the open sections, given by end and effective style, that end no later than `offset`. -/
def close (offset : Nat) : RunWriter → List (Nat × Style) → RunWriter × List (Nat × Style)
  | writer, [] => (writer, [])
  | writer, (stop, style) :: enclosing =>
    if stop ≤ offset then
      close offset { writer.write stop style with position := stop } enclosing
    else
      (writer, (stop, style) :: enclosing)

/-- Closes all open sections. -/
def finish : RunWriter → List (Nat × Style) → RunWriter
  | writer, [] => writer
  | writer, (stop, style) :: enclosing =>
    finish { writer.write stop style with position := stop } enclosing

/-- Goes through the sections that are still to come, inside of those that are open. -/
def flatten : RunWriter → List (Nat × Style) → List Section → RunWriter
  | writer, opened, [] => writer.finish opened
  | writer, opened, sec :: rest =>
    let (writer, opened) := writer.close sec.offset opened
    match opened with
    | [] =>
      flatten { writer with position := sec.offset } [(sec.stop, Style.plain.overlay sec.style)]
        rest
    | (stop, style) :: enclosing =>
      flatten { writer.write sec.offset style with position := sec.offset }
        ((sec.stop, style.overlay sec.style) :: (stop, style) :: enclosing) rest

end RunWriter

/-- The runs of a line from left to right. -/
def StyledLine.runs (line : StyledLine) : List StyledRun :=
  (RunWriter.flatten ⟨[], line.offset⟩ [] line.sections).runs.reverse

end Highlight
