import Highlight.Line.Runs
import Highlight.Proofs.Except
import Highlight.Proofs.Scan.Line
import Mathlib.Data.List.InsertIdx

/-! # Lines elsewhere in a document

Number and offset of a line say where its sections lie and nothing more: a line that is highlighted at
another place of the document has the same sections relative to its start
(`Highlight.Grammar.relative_of_highlightLine`). Flattening moves the runs with the sections
(`Highlight.StyledLine.runs_move`), so that the whole outcome is moved, or is the same fault
(`Highlight.Grammar.highlightLine_eq_move`).
-/

namespace Highlight

/-- The section that lies further on in the document. -/
def Section.shift (distance : Nat) (sec : Section) : Section :=
  { sec with offset := sec.offset + distance }

theorem Section.stop_shift (distance : Nat) (sec : Section) :
    (sec.shift distance).stop = sec.stop + distance :=
  Nat.add_right_comm _ _ _

/-- The sections of a line, each with its distance from the start of the line. -/
def StyledLine.relative (line : StyledLine) : List (Int × Nat × Style) :=
  line.sections.map fun sec => ((sec.offset : Int) - line.offset, sec.length, sec.style)

namespace Scan.Painter

variable (distance position : Nat) (painter : Painter)

/-- A painter that has painted the same further on in the document. -/
def shift : Painter :=
  { painter with
    origin := painter.origin + distance
    sections := painter.sections.map (Section.shift distance) }

/-- A section that a style can continue is moved along with the line. -/
theorem continuable?_shift (style : Style) :
    (painter.shift distance).continuable? style (painter.origin + distance + position) =
      painter.continuable? style (painter.origin + position) := by
  have reaches : ∀ sec : Section,
      sec.stop + distance = painter.origin + distance + position ↔
        sec.stop = painter.origin + position := by
    intro sec
    omega
  have same : ∀ sec : Section, (Section.shift distance sec).style = sec.style := fun _ => rfl
  simp only [continuable?, shift, List.getElem?_map, Option.any_map,
    Section.stop_shift, reaches, same]

/-- Opening a style on a line that is moved moves what was painted. -/
theorem push_shift (style : Option Style) :
    (painter.shift distance).push style position = (painter.push style position).shift distance := by
  cases style with
  | none => rfl
  | some style =>
      have same := painter.continuable?_shift distance position style
      simp only [push]
      rw [show (painter.shift distance).origin = painter.origin + distance from rfl, same]
      split
      · rfl
      · simp [shift, Section.shift, Nat.add_right_comm]

/-- So does closing one. -/
theorem pop_shift :
    (painter.shift distance).pop position = (painter.pop position).shift distance := by
  have length : ∀ sec : Section, painter.origin + distance + position - (sec.offset + distance) =
      painter.origin + position - sec.offset := by
    intro sec
    omega
  rcases painter with ⟨origin, sections, _ | ⟨_ | index, rest⟩, lastClosed⟩
  · rfl
  · rfl
  · simp only [pop, shift, List.getElem?_map]
    cases sections[index]? with
    | none => rfl
    | some sec =>
        simp only [Option.map_some, Section.shift, length]
        split
        · rw [List.eraseIdx_map]
        · rw [List.map_set]
          rfl

theorem draw_shift (strokes : List Stroke) :
    (painter.shift distance).draw strokes = (painter.draw strokes).shift distance := by
  induction strokes generalizing painter with
  | nil => rfl
  | cons stroke rest ih =>
      cases stroke with
      | push style position => rw [draw_cons, Stroke.apply, push_shift, ih]; rfl
      | pop position => rw [draw_cons, Stroke.apply, pop_shift, ih]; rfl

theorem popAll_shift :
    (painter.shift distance).popAll position = (painter.popAll position).shift distance := by
  unfold popAll
  rw [show (painter.shift distance).opened = painter.opened from rfl]
  generalize painter.opened = opened
  induction opened generalizing painter with
  | nil => rfl
  | cons _ rest ih => rw [List.foldl_cons, List.foldl_cons, pop_shift, ih]

end Scan.Painter

/-- Sections painted at an origin are those painted at zero, moved there. -/
theorem Scan.paintedSections_shift (origin : Nat) (strokes : List Stroke) (stop : Nat) :
    paintedSections origin strokes stop =
      (paintedSections 0 strokes stop).map (Section.shift origin) := by
  have start : ({ origin := origin } : Painter) = ({ origin := 0 } : Painter).shift origin := by
    simp [Painter.shift]
  rw [paintedSections, start, Painter.draw_shift, Painter.popAll_shift]
  rfl

/-! ## Runs -/

/-- The run that lies further on in the document. -/
def StyledRun.shift (distance : Nat) (run : StyledRun) : StyledRun :=
  { run with offset := run.offset + distance }

theorem StyledRun.stop_shift (distance : Nat) (run : StyledRun) :
    (run.shift distance).stop = run.stop + distance :=
  Nat.add_right_comm _ _ _

namespace RunWriter

variable (distance : Nat) (writer : RunWriter)

/-- A writer that has written the same further on in the document. -/
def shift : RunWriter := ⟨writer.runs.map (StyledRun.shift distance), writer.position + distance⟩

/-- Open sections that end further on in the document. -/
def shiftOpened (opened : List (Nat × Style)) : List (Nat × Style) :=
  opened.map fun (stop, style) => (stop + distance, style)

theorem shiftOpened_cons (stop : Nat) (style : Style) (enclosing : List (Nat × Style)) :
    shiftOpened distance ((stop, style) :: enclosing) =
      (stop + distance, style) :: shiftOpened distance enclosing :=
  rfl

/-- A run written behind moved runs is moved itself. -/
theorem write_shift (stop : Nat) (style : Style) :
    (writer.shift distance).write (stop + distance) style =
      (writer.write stop style).shift distance := by
  obtain ⟨runs, position⟩ := writer
  have length : stop + distance - (position + distance) = stop - position :=
    Nat.add_sub_add_right stop distance position
  simp only [write, shift, Nat.add_le_add_iff_right, length]
  split
  · rfl
  · cases runs with
    | nil => rfl
    | cons last earlier =>
        have touches : (last.shift distance).stop = position + distance ↔ last.stop = position := by
          rw [StyledRun.stop_shift, Nat.add_right_cancel_iff]
        have styled : (last.shift distance).style = last.style := rfl
        simp only [List.map_cons, touches, styled]
        split <;> rfl

/-- What is written up to the end of a section leaves the writer there, wherever the line lies. -/
theorem write_shift_moved (stop : Nat) (style : Style) :
    { (writer.shift distance).write (stop + distance) style with position := stop + distance } =
      shift distance { writer.write stop style with position := stop } := by
  rw [write_shift]
  rfl

/-- Closing moved sections writes moved runs. -/
theorem close_shift (offset : Nat) (opened : List (Nat × Style)) :
    close (offset + distance) (writer.shift distance) (shiftOpened distance opened) =
      ((close offset writer opened).1.shift distance,
        shiftOpened distance (close offset writer opened).2) := by
  induction opened generalizing writer with
  | nil => rfl
  | cons innermost enclosing ih =>
      obtain ⟨stop, style⟩ := innermost
      rw [shiftOpened_cons, close, close]
      simp only [Nat.add_le_add_iff_right]
      split
      · rw [write_shift_moved]
        exact ih _
      · rfl

/-- Closing all of them does. -/
theorem finish_shift (opened : List (Nat × Style)) :
    finish (writer.shift distance) (shiftOpened distance opened) =
      (finish writer opened).shift distance := by
  induction opened generalizing writer with
  | nil => rfl
  | cons innermost enclosing ih =>
      obtain ⟨stop, style⟩ := innermost
      rw [shiftOpened_cons, finish, finish, write_shift_moved]
      exact ih _

/-- Moved sections are flattened to moved runs. -/
theorem flatten_shift (opened : List (Nat × Style)) (sections : List Section) :
    flatten (writer.shift distance) (shiftOpened distance opened)
        (sections.map (Section.shift distance)) =
      (flatten writer opened sections).shift distance := by
  induction sections generalizing writer opened with
  | nil => exact finish_shift distance writer opened
  | cons sec rest ih =>
      have closed := close_shift distance writer sec.offset opened
      rw [List.map_cons, flatten, flatten, show (sec.shift distance).offset = sec.offset + distance
        from rfl, closed]
      generalize close sec.offset writer opened = outcome
      obtain ⟨after, _ | ⟨⟨stop, style⟩, enclosing⟩⟩ := outcome
      · have later := ih { after with position := sec.offset }
          [(sec.stop, Style.plain.overlay sec.style)]
        rw [shiftOpened_cons, ← Section.stop_shift] at later
        exact later
      · have later := ih { after.write sec.offset style with position := sec.offset }
          ((sec.stop, style.overlay sec.style) :: (stop, style) :: enclosing)
        rw [← write_shift_moved, shiftOpened_cons, ← Section.stop_shift] at later
        exact later

end RunWriter

/-- The line with another number that lies further on in the document. -/
def StyledLine.move (number distance : Nat) (line : StyledLine) : StyledLine where
  number := number
  offset := line.offset + distance
  length := line.length
  sections := line.sections.map (Section.shift distance)

theorem StyledLine.runs_move (number distance : Nat) (line : StyledLine) :
    (line.move number distance).runs = line.runs.map (StyledRun.shift distance) := by
  have flattened := RunWriter.flatten_shift distance ⟨[], line.offset⟩ [] line.sections
  rw [runs, runs, List.map_reverse]
  exact congrArg (fun writer => writer.runs.reverse) flattened

/-- The runs of a line, each with its distance from the start of the line. -/
def StyledLine.relativeRuns (line : StyledLine) : List (Int × Nat × Style) :=
  line.runs.map fun run => ((run.offset : Int) - line.offset, run.length, run.style)

theorem add_sub_add_right (place start distance : Nat) :
    ((place + distance : Nat) : Int) - (start + distance : Nat) = (place : Int) - start := by
  omega

theorem StyledLine.relative_move (number distance : Nat) (line : StyledLine) :
    (line.move number distance).relative = line.relative := by
  rw [relative, relative, move, List.map_map]
  refine List.map_congr_left fun sec _ => ?_
  simp only [Function.comp_apply, Section.shift, add_sub_add_right]

theorem StyledLine.relativeRuns_move (number distance : Nat) (line : StyledLine) :
    (line.move number distance).relativeRuns = line.relativeRuns := by
  rw [relativeRuns, relativeRuns, runs_move, List.map_map]
  refine List.map_congr_left fun run _ => ?_
  simp only [Function.comp_apply, StyledRun.shift, move, add_sub_add_right]

/-- **Number and offset only place a line.** There is one outcome for a text, and at every place of a
document it is that outcome, moved there. -/
theorem Grammar.highlightLine_eq_move (grammar : Grammar) (stack : SpanStack) (text : String)
    (number offset : Nat) :
    grammar.highlightLine stack number offset text =
      (grammar.highlightLine stack 0 0 text).map fun (line, final) =>
        (line.move number offset, final) := by
  rcases grammar.highlightLine_draws stack text with ⟨pattern, fails⟩ | ⟨strokes, _, draws⟩
  · rw [fails, fails]
    rfl
  · rw [draws, draws, Scan.paintedSections_shift offset]
    cases grammar.scanLine stack text with
    | error fault => rfl
    | ok final => simp only [Except.map, StyledLine.move, Nat.zero_add]

/-- **Independence of the place.** A line that can be highlighted at one place of a document is highlighted
at every other, with the same sections relative to its start. -/
theorem Grammar.relative_of_highlightLine {grammar : Grammar} {stack final : SpanStack}
    {number offset : Nat} {text : String} {line : StyledLine}
    (highlighted : grammar.highlightLine stack number offset text = .ok (line, final))
    (otherNumber otherOffset : Nat) :
    ∃ other, grammar.highlightLine stack otherNumber otherOffset text = .ok (other, final) ∧
      other.relative = line.relative := by
  rw [highlightLine_eq_move] at highlighted
  obtain ⟨⟨base, _⟩, found, same⟩ := exists_ok_of_map highlighted
  cases same
  refine ⟨base.move otherNumber otherOffset, ?_, ?_⟩
  · rw [highlightLine_eq_move, found]
    rfl
  · rw [StyledLine.relative_move, StyledLine.relative_move]

end Highlight
