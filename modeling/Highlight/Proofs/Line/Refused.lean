import Highlight.Proofs.Line.Overlay

/-! # Lines that cannot be laid over one another

Where one of the two lines breaks the nesting rule, nothing is laid. Where both obey it, the overlay may
still reach out of the line, and this is found only once all of it is laid: the line then has every piece
of the overlay, also those that lie outside of it (`Highlight.StyledLine.merge_refused`).
-/

namespace Highlight.StyledLine

variable {line overlay : StyledLine}

/-- If one of the lines is not valid, nothing is placed. -/
theorem merge_of_invalid (invalid : line.validate ≠ .ok () ∨ overlay.validate ≠ .ok ()) :
    (line.merge overlay).1 = line := by
  rw [merge]
  split
  · rfl
  · rfl
  · rename_i valid overlayValid
    exact absurd invalid (not_or.mpr ⟨not_not.mpr valid, not_not.mpr overlayValid⟩)

/-- The sections of a line that obeys the nesting rule change if it obeys that rule no longer. -/
theorem sections_place_ne (valid : line.validate = .ok ())
    (broken : (line.place overlay).validate ≠ .ok ()) :
    (line.place overlay).sections ≠ line.sections := by
  intro same
  have unchanged : line.place overlay = line := by
    show { line with sections := (line.place overlay).sections } = line
    rw [same]
  rw [unchanged] at broken
  exact broken valid

/-- An overlay that lies within the line reaches out of it with none of its sections. -/
theorem validate_place_of_within (valid : line.validate = .ok ())
    (overlayValid : overlay.validate = .ok ()) (starts : line.offset ≤ overlay.offset)
    (ends : overlay.stop ≤ line.stop) : (line.place overlay).validate = .ok () := by
  refine (validate_place_iff valid overlayValid).mpr fun sec member _ => ?_
  have inside := (overlay.validate_eq_ok_iff.mp overlayValid).1 sec member
  exact ⟨Nat.le_trans starts inside.1, Nat.le_trans inside.2 ends⟩

/-- **Refused merging.** If an overlay is refused, the sections of the line are as before just if one of the
two lines broke the nesting rule to begin with. If both obeyed it, the fault names a piece of the overlay
that lies outside of the line, the line has all pieces of the overlay besides its own sections, and each
byte has the styles of the line and behind them those of the overlay. An overlay that lies within the line
is refused without a change to it. -/
theorem merge_refused {fault : SectionFault} (refused : (line.merge overlay).2 = .error fault) :
    ((line.merge overlay).1.sections = line.sections ↔
      line.validate ≠ .ok () ∨ overlay.validate ≠ .ok ()) ∧
    (line.merge overlay).1 = { line with sections := (line.merge overlay).1.sections } ∧
    (line.validate = .ok () → overlay.validate = .ok () →
      (∃ index sec, fault = .outOfBounds index ∧
        (line.merge overlay).1.sections[index]? = some sec ∧
        (∃ whole ∈ overlay.sections, whole.HasPiece (line.extent :: line.sections) sec) ∧
        (sec.offset < line.offset ∨ line.stop < sec.stop)) ∧
      Woven (fun piece => ∃ whole ∈ overlay.sections,
          whole.HasPiece (line.extent :: line.sections) piece)
        line.sections (line.merge overlay).1.sections ∧
      ∀ offset,
        (line.merge overlay).1.stylesAt offset = line.stylesAt offset ++ overlay.stylesAt offset) ∧
    (line.offset ≤ overlay.offset → overlay.stop ≤ line.stop → (line.merge overlay).1 = line) := by
  by_cases invalid : line.validate ≠ .ok () ∨ overlay.validate ≠ .ok ()
  · have unchanged := merge_of_invalid invalid
    rw [unchanged]
    refine ⟨iff_of_true rfl invalid, rfl, fun valid overlayValid => ?_, fun _ _ => rfl⟩
    exact absurd invalid (not_or.mpr ⟨not_not.mpr valid, not_not.mpr overlayValid⟩)
  · obtain ⟨valid, overlayValid⟩ := not_or.mp invalid
    rw [not_not] at valid overlayValid
    rw [merge_of_valid valid overlayValid] at refused ⊢
    have broken : (line.place overlay).validate ≠ .ok () := fun fits =>
      nomatch fits.symm.trans refused
    have woven := woven_place_extent valid overlayValid
    refine ⟨iff_of_false (sections_place_ne valid broken) invalid, rfl, fun _ _ => ⟨?_, woven,
      stylesAt_place valid overlayValid⟩, fun starts ends => ?_⟩
    · obtain ⟨index, sec, rfl, listed, outside⟩ :=
        exists_outside_of_checkSections (nested_place valid overlayValid) refused
      refine ⟨_, sec, rfl, by rwa [Nat.zero_add], ?_, outside⟩
      -- The sections of the line itself lie inside of it.
      refine (woven.mem_or_added (List.mem_of_getElem? listed)).resolve_left fun own => ?_
      have inside := (line.validate_eq_ok_iff.mp valid).1 sec own
      rcases outside with before | behind
      · exact absurd inside.1 (Nat.not_le_of_lt before)
      · exact absurd inside.2 (Nat.not_le_of_lt behind)
    · exact absurd (validate_place_of_within valid overlayValid starts ends) broken

/-- A section that reaches out of a line of two bytes is refused, and is on it. -/
theorem merge_refused_beyond :
    let line : StyledLine := ⟨1, 0, 2, []⟩
    let overlay : StyledLine := ⟨1, 0, 4, [⟨1, 3, .colored .red⟩]⟩
    (line.merge overlay).2 = .error (.outOfBounds 1) ∧
      (line.merge overlay).1.stylesAt 3 = line.stylesAt 3 ++ overlay.stylesAt 3 := by
  intro line overlay
  have refused : (line.merge overlay).2 = .error (.outOfBounds 1) := by decide
  have valid : line.validate = .ok () := by decide
  have overlayValid : overlay.validate = .ok () := by decide
  obtain ⟨_, _, laid, _⟩ := merge_refused refused
  exact ⟨refused, (laid valid overlayValid).2.2 3⟩

/-- A line does not have the same sections as before wherever an overlay is refused. -/
theorem merge_leaves_pieces :
    ¬ ∀ (line overlay : StyledLine) (fault : SectionFault),
      (line.merge overlay).2 = .error fault → (line.merge overlay).1.sections = line.sections := by
  intro unchanged
  have same := unchanged ⟨1, 0, 2, []⟩ ⟨1, 0, 4, [⟨1, 3, .colored .red⟩]⟩ (.outOfBounds 1) (by decide)
  have pieces : (merge ⟨1, 0, 2, []⟩ ⟨1, 0, 4, [⟨1, 3, .colored .red⟩]⟩).1.sections =
      [⟨1, 1, .colored .red⟩, ⟨2, 2, .colored .red⟩] := by decide
  rw [pieces] at same
  contradiction

end Highlight.StyledLine
