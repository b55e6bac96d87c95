import Highlight.Proofs.Line.Laid
import Highlight.Proofs.Line.Runs
import Mathlib.Data.List.Pairwise

/-! # Where runs start and end

Where no section starts or ends a byte has the styles of the byte before it, so that both belong to one
run or to none. A run therefore starts and ends only where sections do
(`Highlight.StyledLine.isEdge_of_mem_runs`).
-/

namespace Highlight

open Section (stylesAt)

/-- Where the styles change from one byte to the next, a section starts or ends. -/
theorem Section.isEdge_of_stylesAt_ne {sections : List Section} {place : Nat}
    (changes : stylesAt sections place ≠ stylesAt sections (place + 1)) :
    IsEdge sections (place + 1) := by
  by_contra smooth
  have same : ∀ sec ∈ sections, sec.contains place = sec.contains (place + 1) := by
    intro sec member
    have noStart : place + 1 ≠ sec.offset := fun at_ => smooth ⟨sec, member, .inl at_⟩
    have noStop : place + 1 ≠ sec.stop := fun at_ => smooth ⟨sec, member, .inr at_⟩
    rw [Bool.eq_iff_iff, contains_iff, contains_iff]
    omega
  exact changes (by rw [stylesAt, stylesAt, List.filter_congr same])

/-- Runs that touch are neighbours in their list, since nothing fits between them, and differ in style. -/
theorem StyledRun.style_ne_of_touching {runs : List StyledRun}
    (filled : ∀ run ∈ runs, 0 < run.length)
    (ordered : runs.Pairwise fun first second => first.stop ≤ second.offset)
    (joined : runs.IsChain fun first second =>
      first.stop = second.offset → first.style ≠ second.style) :
    ∀ first ∈ runs, ∀ second ∈ runs, first.stop = second.offset → first.style ≠ second.style := by
  induction runs with
  | nil => simp
  | cons head rest ih =>
      obtain ⟨headFilled, restFilled⟩ := List.forall_mem_cons.mp filled
      obtain ⟨before, restOrdered⟩ := List.pairwise_cons.mp ordered
      have later := ih restFilled restOrdered joined.tail
      have headMoves : head.offset < head.stop := Nat.lt_add_of_pos_right headFilled
      intro first firstMember second secondMember touches
      rcases List.mem_cons.mp firstMember with rfl | firstLater <;>
        rcases List.mem_cons.mp secondMember with rfl | secondLater
      · omega
      · -- Only the run next to the head can touch it.
        cases rest with
        | nil => cases secondLater
        | cons next others =>
            rcases List.mem_cons.mp secondLater with rfl | beyond
            · exact (List.isChain_cons_cons.mp joined).1 touches
            · have nextFilled := restFilled next List.mem_cons_self
              have nextBefore := (List.pairwise_cons.mp restOrdered).1 second beyond
              have headBefore := before next List.mem_cons_self
              rw [StyledRun.stop] at nextBefore
              omega
      · have headBefore := before first firstLater
        have firstFilled := restFilled first firstLater
        rw [StyledRun.stop] at touches
        omega
      · exact later first firstLater second secondLater touches

namespace StyledLine

variable {line : StyledLine} {run other : StyledRun}

theorem style_ne_of_touching (valid : line.validate = .ok ()) (member : run ∈ line.runs)
    (otherMember : other ∈ line.runs) (touches : run.stop = other.offset) :
    run.style ≠ other.style :=
  StyledRun.style_ne_of_touching (fun _ => nonempty_of_mem_runs valid) (runs_ordered valid)
    (runs_joined valid) run member other otherMember touches

/-- Two of its runs are the same or lie apart. -/
theorem apart_of_mem_runs (valid : line.validate = .ok ()) (member : run ∈ line.runs)
    (otherMember : other ∈ line.runs) :
    run = other ∨ run.stop ≤ other.offset ∨ other.stop ≤ run.offset := by
  have apart : line.runs.Pairwise fun first second =>
      first.stop ≤ second.offset ∨ second.stop ≤ first.offset := (runs_ordered valid).imp .inl
  have symmetric : Std.Symm fun first second : StyledRun =>
      first.stop ≤ second.offset ∨ second.stop ≤ first.offset := ⟨fun _ _ => Or.symm⟩
  by_cases same : run = other
  · exact .inl same
  · exact .inr (apart.forall member otherMember same)

/-- Where the styles do not change the run goes on. -/
theorem eq_of_same_styles (valid : line.validate = .ok ()) (member : run ∈ line.runs)
    (otherMember : other ∈ line.runs) {place : Nat} (covers : run.contains place = true)
    (coversNext : other.contains (place + 1) = true)
    (same : line.stylesAt place = line.stylesAt (place + 1)) : run = other := by
  have styles : run.style = other.style := by
    rw [style_of_run valid member covers, style_of_run valid otherMember coversNext, same]
  rw [StyledRun.contains_iff] at covers coversNext
  rcases apart_of_mem_runs valid member otherMember with equal | before | behind
  · exact equal
  · have touches : run.stop = other.offset := by omega
    exact absurd styles (style_ne_of_touching valid member otherMember touches)
  · omega

/-- A byte with the styles of one that has a run has a run as well. -/
theorem exists_run_of_same_styles (valid : line.validate = .ok ()) (member : run ∈ line.runs)
    {place other : Nat} (covers : run.contains place = true)
    (same : line.stylesAt place = line.stylesAt other) :
    ∃ next ∈ line.runs, next.contains other = true := by
  have styled : line.stylesAt other ≠ [] := by
    obtain ⟨sec, listed, inside⟩ := (exists_run_iff valid place).mp ⟨run, member, covers⟩
    rw [← same]
    exact Section.stylesAt_ne_nil_iff.mpr ⟨sec, listed, Section.contains_iff.mp inside⟩
  obtain ⟨sec, listed, inside⟩ := Section.stylesAt_ne_nil_iff.mp styled
  exact (exists_run_iff valid other).mpr ⟨sec, listed, Section.contains_iff.mpr inside⟩

/-- **Edges of runs.** A run starts and ends only where a section starts or ends. -/
theorem isEdge_of_mem_runs (valid : line.validate = .ok ()) (member : run ∈ line.runs) :
    IsEdge line.sections run.offset ∧ IsEdge line.sections run.stop := by
  have filled := nonempty_of_mem_runs valid member
  have stop : run.stop = run.offset + run.length := rfl
  have first : run.contains run.offset = true := StyledRun.contains_iff.mpr (by omega)
  constructor
  · cases start : run.offset with
    | zero =>
        rw [start] at first
        obtain ⟨sec, listed, inside⟩ := (exists_run_iff valid 0).mp ⟨run, member, first⟩
        have starts := (Section.contains_iff.mp inside).1
        exact ⟨sec, listed, .inl (by omega)⟩
    | succ place =>
        rw [start] at first
        apply Section.isEdge_of_stylesAt_ne
        intro same
        obtain ⟨before, listed, covers⟩ := exists_run_of_same_styles valid member first
          (show line.stylesAt (place + 1) = line.stylesAt place from same.symm)
        have equal := eq_of_same_styles valid listed member covers first same
        rw [equal, StyledRun.contains_iff] at covers
        omega
  · obtain ⟨place, ends⟩ : ∃ place, run.stop = place + 1 := ⟨run.stop - 1, by omega⟩
    have last : run.contains place = true := StyledRun.contains_iff.mpr (by omega)
    rw [ends]
    apply Section.isEdge_of_stylesAt_ne
    intro same
    obtain ⟨next, listed, covers⟩ := exists_run_of_same_styles valid member last
      (show line.stylesAt place = line.stylesAt (place + 1) from same)
    have equal := eq_of_same_styles valid member listed last covers same
    rw [← equal, StyledRun.contains_iff] at covers
    omega

end StyledLine

end Highlight
