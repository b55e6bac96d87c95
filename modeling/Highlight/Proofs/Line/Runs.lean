import Highlight.Line.Runs
import Highlight.Proofs.Line.Nesting
import Highlight.Proofs.Line.Styles
import Mathlib.Data.List.Chain

/-! # Runs show what sections say

Flattening loses nothing of a line that obeys the nesting rule and adds nothing to it: a byte lies in a
run just where it lies in a section, and the run has the styles of all sections around the byte laid over
one another (`Highlight.StyledLine.runs_exact`). While a line is flattened two things hold. The runs
written so far are right up to the place that has been dealt with (`Highlight.RunWriter.Faithful`), and
from there on the innermost open section that is still to end gives the style (`Highlight.Opened`).
-/

namespace Highlight

open Section (stylesAt)

/-- Whether a byte lies in some of the sections, whose styles come to the given one. -/
def Section.Shows (sections : List Section) (offset : Nat) (style : Style) : Prop :=
  stylesAt sections offset ≠ [] ∧ Style.layered (stylesAt sections offset) = style

/-- Whether a byte lies in a run of the given style. -/
def StyledRun.Shows (runs : List StyledRun) (offset : Nat) (style : Style) : Prop :=
  ∃ run ∈ runs, run.contains offset = true ∧ run.style = style

theorem StyledRun.contains_iff {run : StyledRun} {offset : Nat} :
    run.contains offset = true ↔ run.offset ≤ offset ∧ offset < run.stop := by
  simp [contains]

theorem StyledRun.shows_cons {run : StyledRun} {runs : List StyledRun} {offset : Nat}
    {style : Style} :
    Shows (run :: runs) offset style ↔
      (run.offset ≤ offset ∧ offset < run.stop) ∧ run.style = style ∨ Shows runs offset style := by
  simp only [Shows, List.exists_mem_cons_iff, contains_iff]

namespace RunWriter

variable {sections before rest : List Section} {writer : RunWriter} {stop : Nat} {style : Style}

/-- Runs that are right up to the position of the writer. -/
structure Faithful (sections : List Section) (writer : RunWriter) : Prop where
  nonempty : ∀ run ∈ writer.runs, 0 < run.length
  behind : ∀ run ∈ writer.runs, run.stop ≤ writer.position
  ordered : writer.runs.Pairwise fun later earlier => earlier.stop ≤ later.offset
  joined : writer.runs.IsChain fun later earlier =>
    earlier.stop = later.offset → earlier.style ≠ later.style
  shows : ∀ offset style, StyledRun.Shows writer.runs offset style ↔
    offset < writer.position ∧ Section.Shows sections offset style

/-- Before the first section no byte needs a run. -/
theorem faithful_start {start : Nat} (inside : ∀ sec ∈ sections, start ≤ sec.offset) :
    Faithful sections ⟨[], start⟩ where
  nonempty := by simp
  behind := by simp
  ordered := .nil
  joined := .nil
  shows := by
    intro offset style
    refine iff_of_false (by simp [StyledRun.Shows]) fun ⟨before, shown, _⟩ => ?_
    apply shown
    apply Section.stylesAt_eq_nil
    exact fun sec member => Nat.lt_of_lt_of_le before (inside sec member)

/-- Text that no section contains is passed over. -/
theorem Faithful.skip (faithful : writer.Faithful sections) (ahead : writer.position ≤ stop)
    (bare : ∀ offset style, writer.position ≤ offset → offset < stop →
      ¬ Section.Shows sections offset style) :
    { writer with position := stop }.Faithful sections := by
  refine { faithful with
    behind := fun run member => Nat.le_trans (faithful.behind run member) ahead
    shows := fun offset style => ?_ }
  rw [faithful.shows]
  constructor
  · rintro ⟨before, shown⟩
    exact ⟨Nat.lt_of_lt_of_le before ahead, shown⟩
  · rintro ⟨before, shown⟩
    by_cases passed : offset < writer.position
    · exact ⟨passed, shown⟩
    · exact (bare offset style (Nat.le_of_not_lt passed) before shown).elim

/-- What becomes of the runs when text is written: nothing if there is none, else a run of its own, or
more of the last run if that one has the same style and ends where the text starts. -/
theorem write_cases (writer : RunWriter) (stop : Nat) (style : Style) :
    (stop ≤ writer.position ∧ (writer.write stop style).runs = writer.runs) ∨
      (writer.position < stop ∧ ∃ run : StyledRun, run.style = style ∧ run.stop = stop ∧
        ((run.offset = writer.position ∧ (writer.write stop style).runs = run :: writer.runs ∧
            ∀ last ∈ writer.runs.head?, last.stop = writer.position → last.style ≠ style) ∨
          ∃ last earlier, writer.runs = last :: earlier ∧ last.style = style ∧
            last.stop = writer.position ∧ run.offset = last.offset ∧
            (writer.write stop style).runs = run :: earlier)) := by
  obtain ⟨runs, position⟩ := writer
  by_cases nothing : stop ≤ position
  · exact .inl ⟨nothing, by rw [write, if_pos nothing]⟩
  · have forward : position < stop := Nat.lt_of_not_le nothing
    have reaches : position + (stop - position) = stop := Nat.add_sub_of_le (Nat.le_of_lt forward)
    refine .inr ⟨forward, ?_⟩
    cases runs with
    | nil =>
        refine ⟨⟨position, stop - position, style⟩, rfl, reaches, .inl ⟨rfl, ?_, by simp⟩⟩
        rw [write, if_neg nothing]
    | cons last earlier =>
        by_cases joins : last.style = style ∧ last.stop = position
        · refine ⟨{ last with length := last.length + (stop - position) }, joins.1, ?_,
            .inr ⟨last, earlier, rfl, joins.1, joins.2, rfl, ?_⟩⟩
          · rw [StyledRun.stop, ← Nat.add_assoc]
            exact (congrArg (· + (stop - position)) joins.2).trans reaches
          · rw [write, if_neg nothing]
            exact congrArg RunWriter.runs (if_pos joins)
        · refine ⟨⟨position, stop - position, style⟩, rfl, reaches, .inl ⟨rfl, ?_, ?_⟩⟩
          · rw [write, if_neg nothing]
            exact congrArg RunWriter.runs (if_neg joins)
          · intro other isLast touches equal
            cases isLast
            exact joins ⟨equal, touches⟩

/-- What is written shows on the bytes up to its end, besides what was shown before. -/
theorem shows_write (offset : Nat) (other : Style) :
    StyledRun.Shows (writer.write stop style).runs offset other ↔
      (writer.position ≤ offset ∧ offset < stop) ∧ style = other ∨
        StyledRun.Shows writer.runs offset other := by
  rcases writer.write_cases stop style with ⟨nothing, same⟩ | ⟨forward, run, rfl, rfl, new | more⟩
  · rw [same]
    exact (or_iff_right fun inside => by omega).symm
  · obtain ⟨starts, same, _⟩ := new
    rw [same, StyledRun.shows_cons, starts]
  · obtain ⟨last, earlier, runs, equal, touches, starts, same⟩ := more
    rw [same, runs, StyledRun.shows_cons, StyledRun.shows_cons, equal, starts, touches, ← or_assoc,
      ← or_and_right]
    have ordered : last.offset ≤ writer.position := touches ▸ Nat.le_add_right _ _
    refine or_congr_left (and_congr_left fun _ => ?_)
    omega

/-- What the runs show once text is written that looks as the sections say. -/
theorem Faithful.shows_write (faithful : writer.Faithful sections) (ahead : writer.position ≤ stop)
    (same : ∀ offset other, writer.position ≤ offset → offset < stop →
      (Section.Shows sections offset other ↔ style = other)) (offset : Nat) (other : Style) :
    StyledRun.Shows (writer.write stop style).runs offset other ↔
      offset < stop ∧ Section.Shows sections offset other := by
  rw [RunWriter.shows_write, faithful.shows]
  by_cases passed : offset < writer.position
  · have early : offset < stop := Nat.lt_of_lt_of_le passed ahead
    simp only [passed, early, Nat.not_le.mpr passed, false_and, true_and, false_or]
  · have late : writer.position ≤ offset := Nat.le_of_not_lt passed
    simp only [passed, late, false_and, true_and, or_false]
    exact and_congr_right fun early => (same offset other late early).symm

/-- Text of one style is written up to where that style ends. -/
theorem Faithful.write (faithful : writer.Faithful sections) (ahead : writer.position ≤ stop)
    (same : ∀ offset other, writer.position ≤ offset → offset < stop →
      (Section.Shows sections offset other ↔ style = other)) :
    { writer.write stop style with position := stop }.Faithful sections := by
  have behind : ∀ run ∈ writer.runs, run.stop ≤ stop := fun run member =>
    Nat.le_trans (faithful.behind run member) ahead
  have shows := faithful.shows_write ahead same
  rcases writer.write_cases stop style with ⟨_, runs⟩ | ⟨forward, run, rfl, ends, new | more⟩
  · constructor
    · rw [runs]; exact faithful.nonempty
    · rw [runs]; exact behind
    · rw [runs]; exact faithful.ordered
    · rw [runs]; exact faithful.joined
    · exact shows
  · obtain ⟨starts, runs, apart⟩ := new
    have filled : 0 < run.length := by
      rw [StyledRun.stop] at ends
      omega
    constructor
    · rw [runs]; exact List.forall_mem_cons.mpr ⟨filled, faithful.nonempty⟩
    · rw [runs]; exact List.forall_mem_cons.mpr ⟨Nat.le_of_eq ends, behind⟩
    · rw [runs]; exact List.pairwise_cons.mpr ⟨starts ▸ faithful.behind, faithful.ordered⟩
    · rw [runs]; exact List.isChain_cons.mpr ⟨starts ▸ apart, faithful.joined⟩
    · exact shows
  · obtain ⟨last, earlier, known, equal, touches, starts, runs⟩ := more
    obtain ⟨nonempty, passed, ordered, joined, -⟩ := faithful
    rw [known] at nonempty behind ordered joined
    have filled : 0 < run.length := by
      rw [StyledRun.stop] at ends touches
      omega
    constructor
    · rw [runs]; exact List.forall_mem_cons.mpr ⟨filled, (List.forall_mem_cons.mp nonempty).2⟩
    · rw [runs]
      exact List.forall_mem_cons.mpr ⟨Nat.le_of_eq ends, (List.forall_mem_cons.mp behind).2⟩
    · rw [runs]; exact List.pairwise_cons.mpr (starts ▸ List.pairwise_cons.mp ordered)
    · rw [runs]; exact List.isChain_cons.mpr (starts ▸ equal ▸ List.isChain_cons.mp joined)
    · exact shows

end RunWriter

/-- The style of the innermost open section that ends behind a byte. -/
def innermost? (entries : List (Nat × Style)) (offset : Nat) : Option Style :=
  (entries.find? fun entry => decide (offset < entry.1)).map Prod.snd

/-- The style of the innermost open section. -/
def enclosingStyle : List (Nat × Style) → Style
  | [] => .plain
  | (_, style) :: _ => style

/-- Open sections, given by end and effective style, that say what all sections before them show from
`position` on. -/
structure Opened (before : List Section) (position : Nat) (entries : List (Nat × Style)) :
    Prop where
  ahead : ∀ entry ∈ entries, position ≤ entry.1
  ends : ∀ entry ∈ entries, ∃ sec ∈ before, sec.stop = entry.1
  shows : ∀ offset style, position ≤ offset →
    (Section.Shows before offset style ↔ innermost? entries offset = some style)
  ascending : entries.Pairwise fun inner outer => inner.1 ≤ outer.1

theorem innermost?_cons_of_lt {stop offset : Nat} {style : Style} {enclosing : List (Nat × Style)}
    (early : offset < stop) : innermost? ((stop, style) :: enclosing) offset = some style := by
  rw [innermost?, List.find?_cons_of_pos (by simpa using early)]
  rfl

theorem innermost?_cons_of_le {stop offset : Nat} {style : Style} {enclosing : List (Nat × Style)}
    (late : stop ≤ offset) :
    innermost? ((stop, style) :: enclosing) offset = innermost? enclosing offset := by
  rw [innermost?, List.find?_cons_of_neg (by simpa using late)]
  rfl

namespace Opened

variable {before rest sections : List Section} {position stop : Nat} {style : Style}
  {entries enclosing : List (Nat × Style)} {sec : Section}

theorem start (position : Nat) : Opened [] position [] :=
  ⟨by simp, by simp, fun _ _ _ => iff_of_false (fun shown => shown.1 rfl) (by simp [innermost?]), .nil⟩

theorem of_le (opened : Opened before position entries) (later : position ≤ stop)
    (ahead : ∀ entry ∈ entries, stop ≤ entry.1) : Opened before stop entries :=
  { opened with
    ahead := ahead
    shows := fun offset style late => opened.shows offset style (Nat.le_trans later late) }

/-- Where the innermost section ends, the one around it is the innermost. -/
theorem tail (opened : Opened before position ((stop, style) :: enclosing)) :
    Opened before stop enclosing where
  ahead := (List.pairwise_cons.mp opened.ascending).1
  ends := (List.forall_mem_cons.mp opened.ends).2
  shows := by
    intro offset other late
    have before := opened.ahead _ List.mem_cons_self
    rw [opened.shows offset other (Nat.le_trans before late), innermost?_cons_of_le late]
  ascending := (List.pairwise_cons.mp opened.ascending).2

/-- Up to its end the innermost open section gives the style. -/
theorem shows_head (opened : Opened before position ((stop, style) :: enclosing)) {offset : Nat}
    (late : position ≤ offset) (early : offset < stop) (other : Style) :
    Section.Shows before offset other ↔ style = other := by
  rw [opened.shows offset other late, innermost?_cons_of_lt early, Option.some.injEq]

/-- What the sections before show behind the start of a section that is opened inside of those that are
open, or behind all of them. -/
theorem layered_before (opened : Opened before sec.offset entries)
    (fits : ∀ other ∈ before, other.allows sec = true)
    (unclosed : ∀ entry ∈ entries, sec.offset < entry.1) {offset : Nat}
    (inside : sec.offset ≤ offset ∧ offset < sec.stop) :
    Style.layered (stylesAt before offset) = enclosingStyle entries := by
  rcases entries with _ | ⟨⟨stop, style⟩, enclosing⟩
  · have bare : ¬ stylesAt before offset ≠ [] := fun shown => by
      have nothing := (opened.shows offset _ inside.1).mp ⟨shown, rfl⟩
      cases nothing
    rw [not_not.mp bare]
    rfl
  · obtain ⟨other, member, ends⟩ := opened.ends _ List.mem_cons_self
    have behind := unclosed _ List.mem_cons_self
    have early : offset < stop := by
      rcases Section.allows_iff.mp (fits other member) with apart | ⟨_, within⟩ <;> omega
    exact ((opened.shows_head inside.1 early style).mpr rfl).2

/-- A section opened inside of the others shows its style over theirs. -/
theorem push (opened : Opened before sec.offset entries)
    (fits : ∀ other ∈ before, other.allows sec = true)
    (unclosed : ∀ entry ∈ entries, sec.offset < entry.1) :
    Opened (before ++ [sec]) sec.offset
      ((sec.stop, (enclosingStyle entries).overlay sec.style) :: entries) where
  ahead := List.forall_mem_cons.mpr ⟨Nat.le_add_right _ _, opened.ahead⟩
  ends := by
    refine List.forall_mem_cons.mpr ⟨⟨sec, by simp, rfl⟩, fun entry member => ?_⟩
    obtain ⟨other, inside, ends⟩ := opened.ends entry member
    exact ⟨other, List.mem_append_left _ inside, ends⟩
  shows := by
    intro offset other late
    by_cases early : offset < sec.stop
    · have styles : stylesAt (before ++ [sec]) offset = stylesAt before offset ++ [sec.style] := by
        rw [Section.stylesAt_append, Section.stylesAt_cons_of_contains ⟨late, early⟩]
        rfl
      rw [innermost?_cons_of_lt early, Option.some.injEq, Section.Shows, styles,
        Style.layered_append, Style.layered_singleton,
        opened.layered_before fits unclosed ⟨late, early⟩]
      exact and_iff_right (by simp)
    · have outside : sec.stop ≤ offset := Nat.le_of_not_lt early
      have styles : stylesAt (before ++ [sec]) offset = stylesAt before offset := by
        rw [Section.stylesAt_append, Section.stylesAt_cons_of_not_contains (.inr outside)]
        exact List.append_nil _
      rw [innermost?_cons_of_le outside, ← opened.shows offset other late, Section.Shows, styles]
      rfl
  ascending := by
    refine List.pairwise_cons.mpr ⟨fun entry member => ?_, opened.ascending⟩
    obtain ⟨other, inside, ends⟩ := opened.ends entry member
    have behind := unclosed entry member
    show sec.stop ≤ entry.1
    rcases Section.allows_iff.mp (fits other inside) with apart | ⟨_, within⟩ <;> omega

end Opened

namespace RunWriter

variable {before rest sections : List Section} {writer : RunWriter}
  {entries : List (Nat × Style)} {limit : Nat}

/-- Up to a limit the sections show what those show that are before a place in their list. -/
def Agree (limit : Nat) (sections before : List Section) : Prop :=
  ∀ offset, offset < limit → stylesAt sections offset = stylesAt before offset

theorem Agree.shows_iff (agree : Agree limit sections before) {offset : Nat}
    (early : offset < limit) (style : Style) :
    Section.Shows sections offset style ↔ Section.Shows before offset style := by
  rw [Section.Shows, Section.Shows, agree offset early]

theorem agree_of_ahead (ahead : ∀ sec ∈ rest, limit ≤ sec.offset) :
    Agree limit (before ++ rest) before := by
  intro offset early
  have bare : stylesAt rest offset = [] :=
    Section.stylesAt_eq_nil fun sec member => Nat.lt_of_lt_of_le early (ahead sec member)
  rw [Section.stylesAt_append, bare, List.append_nil]

/-- The innermost open section is written to its end. -/
theorem Faithful.writeHead {stop : Nat} {style : Style} {enclosing : List (Nat × Style)}
    (faithful : writer.Faithful sections)
    (opened : Opened before writer.position ((stop, style) :: enclosing)) {target : Nat}
    (within : target ≤ stop) (ahead : writer.position ≤ target)
    (agree : Agree target sections before) :
    { writer.write target style with position := target }.Faithful sections := by
  apply faithful.write ahead
  intro offset other late early
  rw [agree.shows_iff early, opened.shows_head late (Nat.lt_of_lt_of_le early within)]

/-- Closing the sections that end before a limit writes what they show, one after the other, and leaves
those open that reach beyond it. -/
theorem close_faithful (faithful : writer.Faithful sections)
    (opened : Opened before writer.position entries) (ahead : writer.position ≤ limit)
    (agree : Agree limit sections before) :
    (writer.close limit entries).1.Faithful sections ∧
      Opened before (writer.close limit entries).1.position (writer.close limit entries).2 ∧
      (writer.close limit entries).1.position ≤ limit ∧
      ∀ entry ∈ (writer.close limit entries).2, limit < entry.1 := by
  induction entries generalizing writer with
  | nil => exact ⟨faithful, opened, ahead, by simp [close]⟩
  | cons entry enclosing ih =>
      obtain ⟨stop, style⟩ := entry
      by_cases closes : stop ≤ limit
      · rw [close, if_pos closes]
        have early : Agree stop sections before := fun offset inside =>
          agree offset (Nat.lt_of_lt_of_le inside closes)
        have starts := opened.ahead _ List.mem_cons_self
        exact ih (faithful.writeHead opened (Nat.le_refl _) starts early) opened.tail closes
      · rw [close, if_neg closes]
        have stays : limit < stop := Nat.lt_of_not_le closes
        refine ⟨faithful, opened, ahead, List.forall_mem_cons.mpr ⟨stays, fun outer member => ?_⟩⟩
        exact Nat.lt_of_lt_of_le stays ((List.pairwise_cons.mp opened.ascending).1 outer member)

/-- Closing all of them writes all that the sections show. -/
theorem finish_faithful (faithful : writer.Faithful before)
    (opened : Opened before writer.position entries) :
    (writer.finish entries).Faithful before ∧
      ∀ offset style, Section.Shows before offset style →
        offset < (writer.finish entries).position := by
  induction entries generalizing writer with
  | nil =>
      refine ⟨faithful, fun offset style shown => Nat.lt_of_not_le fun late => ?_⟩
      cases (opened.shows offset style late).mp shown
  | cons entry enclosing ih =>
      have starts := opened.ahead _ List.mem_cons_self
      exact ih (faithful.writeHead opened (Nat.le_refl _) starts fun _ _ => rfl) opened.tail

/-- The writer at the next section. The text before it has the style of the innermost section that is
still open, if there is one. -/
def reach (writer : RunWriter) (offset : Nat) : List (Nat × Style) → RunWriter
  | [] => { writer with position := offset }
  | (_, style) :: _ => { writer.write offset style with position := offset }

theorem position_reach (writer : RunWriter) (offset : Nat) (entries : List (Nat × Style)) :
    (writer.reach offset entries).position = offset := by
  cases entries <;> rfl

/-- A section is flattened by closing those that end before it, writing up to its start and opening it. -/
theorem flatten_cons (writer : RunWriter) (entries : List (Nat × Style)) (sec : Section)
    (rest : List Section) :
    writer.flatten entries (sec :: rest) =
      ((writer.close sec.offset entries).1.reach sec.offset (writer.close sec.offset entries).2).flatten
        ((sec.stop, (enclosingStyle (writer.close sec.offset entries).2).overlay sec.style) ::
          (writer.close sec.offset entries).2) rest := by
  rw [flatten]
  rcases writer.close sec.offset entries with ⟨closed, _ | ⟨⟨stop, style⟩, enclosing⟩⟩ <;> rfl

/-- Writing up to the next section shows the innermost open one there. -/
theorem reach_faithful (faithful : writer.Faithful sections)
    (opened : Opened before writer.position entries) (ahead : writer.position ≤ limit)
    (agree : Agree limit sections before) (unclosed : ∀ entry ∈ entries, limit < entry.1) :
    (writer.reach limit entries).Faithful sections := by
  rcases entries with _ | ⟨⟨stop, style⟩, enclosing⟩
  · apply faithful.skip ahead
    intro offset style late early shown
    have found := (opened.shows offset style late).mp ((agree.shows_iff early style).mp shown)
    cases found
  · have within : limit ≤ stop := Nat.le_of_lt (unclosed _ List.mem_cons_self)
    exact faithful.writeHead opened within ahead agree

/-- The writer stays faithful over all sections, by induction on those that are ahead. What is opened at a
section is what all before it show from there on. -/
theorem flatten_faithful (nested : (before ++ rest).Pairwise fun first second =>
      first.allows second = true) (faithful : writer.Faithful (before ++ rest))
    (opened : Opened before writer.position entries)
    (ahead : ∀ sec ∈ rest, writer.position ≤ sec.offset) :
    (writer.flatten entries rest).Faithful (before ++ rest) ∧
      ∀ offset style, Section.Shows (before ++ rest) offset style →
        offset < (writer.flatten entries rest).position := by
  induction rest generalizing before writer entries with
  | nil =>
      rw [List.append_nil] at faithful ⊢
      exact finish_faithful faithful opened
  | cons sec rest ih =>
      obtain ⟨_, later, across⟩ := List.pairwise_append.mp nested
      obtain ⟨starts, _⟩ := List.pairwise_cons.mp later
      have fits : ∀ other ∈ before, other.allows sec = true := fun other member =>
        across other member sec List.mem_cons_self
      have behind : ∀ other ∈ rest, sec.offset ≤ other.offset := fun other member =>
        Section.le_offset_of_allows (starts other member)
      have agree : Agree sec.offset (before ++ sec :: rest) before :=
        agree_of_ahead (List.forall_mem_cons.mpr ⟨Nat.le_refl _, behind⟩)
      obtain ⟨closedFaithful, closedOpened, within, unclosed⟩ :=
        close_faithful faithful opened (ahead sec List.mem_cons_self) agree
      have reached := reach_faithful closedFaithful closedOpened within agree unclosed
      have atSection := closedOpened.of_le within fun entry member =>
        Nat.le_of_lt (unclosed entry member)
      have starts := position_reach (writer.close sec.offset entries).1 sec.offset
        (writer.close sec.offset entries).2
      rw [List.append_cons] at nested reached ⊢
      rw [flatten_cons]
      refine ih nested reached ?_ ?_
      · rw [starts]
        exact atSection.push fits unclosed
      · rw [starts]
        exact behind

end RunWriter

namespace StyledLine

variable {line : StyledLine}

/-- The runs of a valid line are those of a writer that has come to its end, so that they show what the
sections show. -/
theorem runs_faithful (valid : line.validate = .ok ()) :
    ∃ writer : RunWriter, line.runs = writer.runs.reverse ∧ writer.Faithful line.sections ∧
      ∀ offset style, StyledRun.Shows line.runs offset style ↔
        Section.Shows line.sections offset style := by
  obtain ⟨inside, nested⟩ := (checkSections_eq_ok_iff _ _ _ _).mp valid
  have starts : ∀ sec ∈ line.sections, line.offset ≤ sec.offset := fun sec member =>
    (inside sec member).1
  have all : List.Pairwise (fun first second => first.allows second = true)
      ([] ++ line.sections) := nested
  obtain ⟨faithful, whole⟩ := RunWriter.flatten_faithful all (RunWriter.faithful_start starts)
    (.start _) starts
  refine ⟨_, rfl, faithful, fun offset style => ?_⟩
  have shown := faithful.shows offset style
  constructor
  · rintro ⟨run, member, covers⟩
    exact (shown.mp ⟨run, List.mem_reverse.mp member, covers⟩).2
  · intro covered
    obtain ⟨run, member, covers⟩ := shown.mpr ⟨whole offset style covered, covered⟩
    exact ⟨run, List.mem_reverse.mpr member, covers⟩

/-- Just the bytes in sections are in runs. -/
theorem exists_run_iff (valid : line.validate = .ok ()) (offset : Nat) :
    (∃ run ∈ line.runs, run.contains offset = true) ↔
      ∃ sec ∈ line.sections, sec.contains offset = true := by
  obtain ⟨_, _, _, shows⟩ := runs_faithful valid
  simp only [Section.contains_iff, ← Section.stylesAt_ne_nil_iff]
  constructor
  · rintro ⟨run, member, covers⟩
    exact ((shows offset run.style).mp ⟨run, member, covers, rfl⟩).1
  · intro covered
    obtain ⟨run, member, covers, _⟩ := (shows offset _).mpr ⟨covered, rfl⟩
    exact ⟨run, member, covers⟩

/-- A run has the styles of all sections around its bytes, laid over one another. -/
theorem style_of_run (valid : line.validate = .ok ()) {run : StyledRun} (member : run ∈ line.runs)
    {offset : Nat} (covers : run.contains offset = true) :
    run.style = Style.layered (line.stylesAt offset) := by
  obtain ⟨_, _, _, shows⟩ := runs_faithful valid
  exact ((shows offset run.style).mp ⟨run, member, covers, rfl⟩).2.symm

theorem nonempty_of_mem_runs (valid : line.validate = .ok ()) {run : StyledRun}
    (member : run ∈ line.runs) : 0 < run.length := by
  obtain ⟨writer, runs, faithful, _⟩ := runs_faithful valid
  rw [runs] at member
  exact faithful.nonempty run (List.mem_reverse.mp member)

/-- All runs lie on the line. -/
theorem inside_of_mem_runs (valid : line.validate = .ok ()) {run : StyledRun}
    (member : run ∈ line.runs) : line.offset ≤ run.offset ∧ run.stop ≤ line.stop := by
  have filled := nonempty_of_mem_runs valid member
  have inside := ((checkSections_eq_ok_iff _ _ _ _).mp valid).1
  apply bounds_of_forall filled
  -- Each of its bytes lies in a section, and the sections lie inside the line.
  intro offset late early
  obtain ⟨sec, listed, covers⟩ :=
    (exists_run_iff valid offset).mp ⟨run, member, StyledRun.contains_iff.mpr ⟨late, early⟩⟩
  have bounds := inside sec listed
  have within := Section.contains_iff.mp covers
  exact ⟨Nat.le_trans bounds.1 within.1, Nat.lt_of_lt_of_le within.2 bounds.2⟩

theorem runs_ordered (valid : line.validate = .ok ()) :
    line.runs.Pairwise fun first second => first.stop ≤ second.offset := by
  obtain ⟨writer, runs, faithful, _⟩ := runs_faithful valid
  rw [runs, List.pairwise_reverse]
  exact faithful.ordered

theorem runs_joined (valid : line.validate = .ok ()) :
    line.runs.IsChain fun first second =>
      first.stop = second.offset → first.style ≠ second.style := by
  obtain ⟨writer, runs, faithful, _⟩ := runs_faithful valid
  rw [runs, List.isChain_reverse]
  exact faithful.joined

/-- **Exact runs.** The runs of a line that obeys the nesting rule are not empty, lie inside the line one
behind the other, cover the bytes that its sections cover, each in the style that these come to, and
none continues the run before it in the same style. -/
theorem runs_exact (line : StyledLine) (valid : line.validate = .ok ()) :
    (∀ run ∈ line.runs, 0 < run.length ∧ line.offset ≤ run.offset ∧ run.stop ≤ line.stop) ∧
    (line.runs.Pairwise fun first second =>
      first.offset < second.offset ∧ first.stop ≤ second.offset) ∧
    (∀ offset, (∃ run ∈ line.runs, run.contains offset = true) ↔
      ∃ sec ∈ line.sections, sec.contains offset = true) ∧
    (∀ run ∈ line.runs, ∀ offset, run.contains offset = true →
      run.style = Style.layered (line.stylesAt offset)) ∧
    (line.runs.IsChain fun first second =>
      first.stop = second.offset → first.style ≠ second.style) := by
  have ascending : line.runs.Pairwise fun first second =>
      first.offset < second.offset ∧ first.stop ≤ second.offset := by
    refine (runs_ordered valid).imp_of_mem fun {first second} member _ apart => ⟨?_, apart⟩
    have filled := nonempty_of_mem_runs valid member
    rw [StyledRun.stop] at apart
    omega
  exact ⟨fun run member => ⟨nonempty_of_mem_runs valid member, inside_of_mem_runs valid member⟩,
    ascending, exists_run_iff valid, fun run member offset => style_of_run valid member,
    runs_joined valid⟩

/-- An empty section inside of an outer one, a section that touches it in the same style, and a gap. -/
theorem runs_exact_nested :
    let line : StyledLine := ⟨1, 4, 12, [⟨4, 5, .colored .red⟩, ⟨6, 0, .colored .blue⟩,
      ⟨7, 2, .colored .green⟩, ⟨9, 2, .colored .green⟩, ⟨13, 2, .colored .red⟩]⟩
    line.validate = .ok () ∧
      line.runs = [⟨4, 3, .colored .red⟩, ⟨7, 4, .colored .green⟩, ⟨13, 2, .colored .red⟩] ∧
      ((∃ run ∈ line.runs, run.contains 8 = true) ↔
        ∃ sec ∈ line.sections, sec.contains 8 = true) :=
  ⟨by decide, by decide, (runs_exact _ (by decide)).2.2.1 8⟩

end StyledLine

end Highlight
