import Highlight.Proofs.Line.Edges
import Highlight.Proofs.Terminal.Screen
import Highlight.Proofs.Text.Boundary

/-! # Lines on a terminal

The runs of a line are written one after another, with the text between them. If they start and end
between characters, nothing of the text is lost or repeated, and each character looks as the sections
around it say (`Highlight.Terminal.read_showLine`).
-/

namespace Highlight.Terminal

/-- Characters in the looks of the places that they begin at. -/
def cellsFrom (lookAt : Nat → Look) : Nat → List Char → List Cell
  | _, [] => []
  | place, c :: rest => ⟨c, lookAt place⟩ :: cellsFrom lookAt (place + c.utf8Size) rest

/-- The text of a line, in which each character has the styles of the sections around it. -/
def lineCells (text : String) (line : StyledLine) : List Cell :=
  cellsFrom (fun place => .ofStyle (.layered (line.stylesAt (line.offset + place)))) 0 text.toList

section Cells

variable (lookAt : Nat → Look)

theorem char_cellsFrom (place : Nat) (text : List Char) :
    (cellsFrom lookAt place text).map Cell.char = text := by
  induction text generalizing place with
  | nil => rfl
  | cons c rest ih => rw [cellsFrom, List.map_cons, ih]

/-- The cells of two texts follow one another, the second from the bytes of the first on. -/
theorem cellsFrom_append (place : Nat) (first second : List Char) :
    cellsFrom lookAt place (first ++ second) =
      cellsFrom lookAt place first ++ cellsFrom lookAt (place + Text.byteLength first) second := by
  induction first generalizing place with
  | nil => rfl
  | cons c rest ih =>
      rw [List.cons_append, cellsFrom, cellsFrom, ih, Text.byteLength_cons, Nat.add_assoc]
      rfl

/-- Text that looks the same from its first byte to its last. -/
theorem cellsFrom_of_same {lookAt : Nat → Look} {look : Look} {place : Nat} {text : List Char}
    (same : ∀ other, place ≤ other → other < place + Text.byteLength text → lookAt other = look) :
    cellsFrom lookAt place text = plainCells look text := by
  induction text generalizing place with
  | nil => rfl
  | cons c rest ih =>
      have positive := c.utf8Size_pos
      rw [Text.byteLength_cons] at same
      rw [cellsFrom, same place (Nat.le_refl place) (by omega), ih]
      · rfl
      · exact fun other late early => same other (by omega) (by omega)

end Cells

/-- Whether runs fit a text that begins at `origin`, from a place of the text on: they stand between
characters, one behind the other, and each byte looks as they say. -/
structure Fits (text : List Char) (origin : Nat) (lookAt : Nat → Look) (place : Nat)
    (runs : List StyledRun) : Prop where
  behind : ∀ run ∈ runs, origin + place ≤ run.offset
  ordered : runs.Pairwise fun first second => first.stop ≤ second.offset
  opens : ∀ run ∈ runs, Text.IsBoundary text (run.offset - origin)
  closes : ∀ run ∈ runs, Text.IsBoundary text (run.stop - origin)
  styled : ∀ run ∈ runs, ∀ other, run.contains (origin + other) = true →
    lookAt other = .ofStyle run.style
  bare : ∀ other, place ≤ other → (∀ run ∈ runs, ¬ run.contains (origin + other) = true) →
    lookAt other = {}

/-- Behind its first run a text is fit by the others. -/
theorem Fits.tail {text : List Char} {origin place : Nat} {lookAt : Nat → Look} {run : StyledRun}
    {rest : List StyledRun} (fits : Fits text origin lookAt place (run :: rest)) :
    Fits text origin lookAt (run.stop - origin) rest := by
  obtain ⟨before, ordered⟩ := List.pairwise_cons.mp fits.ordered
  have behind := fits.behind run List.mem_cons_self
  have stop : run.stop = run.offset + run.length := rfl
  exact
    { behind := fun other member => by
        have apart := before other member
        omega
      ordered := ordered
      opens := fun other member => fits.opens other (List.mem_cons_of_mem _ member)
      closes := fun other member => fits.closes other (List.mem_cons_of_mem _ member)
      styled := fun other member => fits.styled other (List.mem_cons_of_mem _ member)
      bare := fun other late uncovered => by
        refine fits.bare other (by omega) (List.forall_mem_cons.mpr ⟨?_, uncovered⟩)
        rw [StyledRun.contains_iff]
        omega }

/-- Before the first run nothing is styled. -/
theorem Fits.bare_before {text : List Char} {origin place : Nat} {lookAt : Nat → Look}
    {run : StyledRun} {rest : List StyledRun} (fits : Fits text origin lookAt place (run :: rest))
    {other : Nat} (late : place ≤ other) (early : other < run.offset - origin) :
    lookAt other = {} := by
  have before := (List.pairwise_cons.mp fits.ordered).1
  have stop : run.stop = run.offset + run.length := rfl
  refine fits.bare other late (List.forall_mem_cons.mpr ⟨?_, fun next member => ?_⟩)
  · rw [StyledRun.contains_iff]
    omega
  · have apart := before next member
    rw [StyledRun.contains_iff]
    omega

/-- The text before the first run is bare. -/
theorem Fits.cells_gap {text front gap : List Char} {origin : Nat} {lookAt : Nat → Look}
    {run : StyledRun} {rest : List StyledRun}
    (fits : Fits text origin lookAt (Text.byteLength front) (run :: rest))
    (opens : Text.byteLength (front ++ gap) = run.offset - origin) :
    cellsFrom lookAt (Text.byteLength front) gap = plainCells {} gap := by
  rw [Text.byteLength_append] at opens
  apply cellsFrom_of_same
  intro other late early
  exact fits.bare_before late (opens ▸ early)

/-- The text in the first run looks as the run says. -/
theorem Fits.cells_run {text front inside : List Char} {origin place : Nat} {lookAt : Nat → Look}
    {run : StyledRun} {rest : List StyledRun} (fits : Fits text origin lookAt place (run :: rest))
    (opens : Text.byteLength front = run.offset - origin)
    (closes : Text.byteLength (front ++ inside) = run.stop - origin) :
    cellsFrom lookAt (Text.byteLength front) inside = plainCells (.ofStyle run.style) inside := by
  have behind := fits.behind run List.mem_cons_self
  rw [Text.byteLength_append] at closes
  apply cellsFrom_of_same
  intro other late early
  apply fits.styled run List.mem_cons_self
  rw [StyledRun.contains_iff]
  omega

/-- A run is shown by the text before it, its style, its own text and the end of the style. -/
theorem showRuns_cons {front gap inside after : List Char} {origin : Nat} {run : StyledRun}
    (opens : Text.byteLength (front ++ gap) = run.offset - origin)
    (closes : Text.byteLength (front ++ gap ++ inside) = run.offset - origin + run.length)
    (others : List StyledRun) :
    showRuns true (front ++ (gap ++ (inside ++ after))) origin (Text.byteLength front)
        (run :: others) =
      gap ++ (styleSequences true run.style ++ (inside ++ (reset ++ (reset ++
        showRuns true (front ++ (gap ++ (inside ++ after))) origin
          (Text.byteLength (front ++ gap ++ inside)) others)))) := by
  have first := Text.slice?_append front gap (inside ++ after)
  have second := Text.slice?_append (front ++ gap) inside after
  rw [List.append_assoc front gap (inside ++ after)] at second
  rw [← opens] at closes
  rw [showRuns, ← opens, ← closes, first, second]
  simp only [Option.getD_some, List.append_assoc]

/-- **Runs.** What is shown for a text and runs that fit it is the text in the looks of its bytes. -/
theorem read_showRuns {text : List Char} (plain : '\x1b' ∉ text) {origin : Nat} {lookAt : Nat → Look}
    {runs : List StyledRun} {front back : List Char} (whole : text = front ++ back)
    (fits : Fits text origin lookAt (Text.byteLength front) runs) (rest : List Char) :
    read .text {} (showRuns true text origin (Text.byteLength front) runs ++ rest) =
      cellsFrom lookAt (Text.byteLength front) back ++ read .text {} rest := by
  induction runs generalizing front back with
  | nil =>
      subst whole
      have same : cellsFrom lookAt (Text.byteLength front) back = plainCells {} back :=
        cellsFrom_of_same fun other late _ => fits.bare other late (List.forall_mem_nil _)
      rw [showRuns, Text.splitAtByte?_append, same]
      exact read_plain (fun member => plain (List.mem_append_right _ member)) {} rest
  | cons run others ih =>
      -- The text is cut at the two ends of the run.
      have behind := fits.behind run List.mem_cons_self
      have length : run.stop = run.offset + run.length := rfl
      have boundaries := And.intro (fits.opens run List.mem_cons_self)
        (fits.closes run List.mem_cons_self)
      rw [whole] at boundaries
      obtain ⟨gap, later, rfl, opens⟩ := boundaries.1.split (by omega)
      rw [← List.append_assoc] at boundaries
      obtain ⟨inside, after, rfl, closes⟩ := boundaries.2.split (by omega)
      have gapLook := fits.cells_gap opens
      have runLook := fits.cells_run opens closes
      have fitsAfter := fits.tail
      rw [← closes] at fitsAfter
      have further := ih (by simpa using whole) fitsAfter
      have plainGap : '\x1b' ∉ gap := fun member => plain (by simp [whole, member])
      have plainInside : '\x1b' ∉ inside := fun member => plain (by simp [whole, member])
      rw [whole] at further ⊢
      rw [showRuns_cons opens (by omega)]
      simp only [List.append_assoc, read_plain plainGap, read_styleSequences,
        read_plain plainInside, read_reset] at further ⊢
      rw [further]
      simp only [cellsFrom_append, gapLook, ← Text.byteLength_append, runLook, List.append_assoc]

variable {line : StyledLine} {text : String}

/-- The runs of a valid line fit its text, each byte looking as the styles around it come to. -/
theorem fits_runs (valid : line.validate = .ok ())
    (boundaries : ∀ edge, IsEdge line.sections edge →
      Text.IsBoundary text.toList (edge - line.offset)) :
    Fits text.toList line.offset
      (fun place => .ofStyle (.layered (line.stylesAt (line.offset + place)))) 0 line.runs where
  behind := fun _ member => (StyledLine.inside_of_mem_runs valid member).1
  ordered := StyledLine.runs_ordered valid
  opens := fun _ member => boundaries _ (StyledLine.isEdge_of_mem_runs valid member).1
  closes := fun _ member => boundaries _ (StyledLine.isEdge_of_mem_runs valid member).2
  styled := fun _ member _ covers => by rw [StyledLine.style_of_run valid member covers]
  bare := by
    intro other _ uncovered
    have unstyled : line.stylesAt (line.offset + other) = [] := by
      by_contra styled
      obtain ⟨sec, listed, inside⟩ := Section.stylesAt_ne_nil_iff.mp styled
      obtain ⟨run, member, covers⟩ := (StyledLine.exists_run_iff valid _).mpr
        ⟨sec, listed, Section.contains_iff.mpr inside⟩
      exact uncovered run member covers
    rw [unstyled]
    rfl

/-- **Lines.** What is shown for a line whose sections stand between characters is its text, in which each
character looks as the sections around it say. The terminal is back in its default state behind it. -/
theorem read_showLine (valid : line.validate = .ok ())
    (boundaries : ∀ edge, IsEdge line.sections edge →
      Text.IsBoundary text.toList (edge - line.offset))
    (plain : '\x1b' ∉ text.toList) (rest : List Char) :
    read .text {} (showLine true text line ++ rest) =
      lineCells text line ++ read .text {} rest :=
  read_showRuns plain (List.nil_append _).symm (fits_runs valid boundaries) rest

end Highlight.Terminal
