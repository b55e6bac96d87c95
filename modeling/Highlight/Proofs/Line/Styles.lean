import Highlight.Line.Section

/-! # Styles at a byte

The styles of the sections that contain a byte, in the order of the sections, and what they come to when
they are laid over one another. Styles laid over one another in two parts may be combined part by part
(`Highlight.Style.layered_append`).
-/

namespace Highlight

namespace Style

theorem overlay_assoc (base middle top : Style) :
    (base.overlay middle).overlay top = base.overlay (middle.overlay top) := by
  simp only [overlay, Option.or_assoc]

theorem overlay_plain (style : Style) : style.overlay plain = style := by
  simp only [overlay, plain, Option.none_or]

theorem plain_overlay (style : Style) : plain.overlay style = style := by
  simp only [overlay, plain, Option.or_none]

/-- Styles laid over a base one by one come to all of them laid over it at once. -/
theorem foldl_overlay (base : Style) (styles : List Style) :
    styles.foldl overlay base = base.overlay (layered styles) := by
  induction styles generalizing base with
  | nil => exact (overlay_plain base).symm
  | cons style rest ih =>
      have onTop : layered (style :: rest) = style.overlay (layered rest) := by
        rw [layered, List.foldl_cons, ih, plain_overlay]
      rw [List.foldl_cons, ih, onTop, overlay_assoc]

theorem layered_append (lower upper : List Style) :
    layered (lower ++ upper) = (layered lower).overlay (layered upper) := by
  rw [layered, List.foldl_append, foldl_overlay]
  rfl

theorem layered_singleton (style : Style) : layered [style] = style := plain_overlay style

end Style

/-- A stretch of bytes lies where each of its bytes does. -/
theorem bounds_of_forall {low high start length : Nat} (filled : 0 < length)
    (inside : ∀ offset, start ≤ offset → offset < start + length → low ≤ offset ∧ offset < high) :
    low ≤ start ∧ start + length ≤ high := by
  have first := inside start (Nat.le_refl _) (by omega)
  have last := inside (start + length - 1) (by omega) (by omega)
  omega

namespace Section

theorem contains_iff {sec : Section} {offset : Nat} :
    sec.contains offset = true ↔ sec.offset ≤ offset ∧ offset < sec.stop := by
  simp [contains]

/-- The styles of those of the sections that contain a byte. -/
def stylesAt (sections : List Section) (offset : Nat) : List Style :=
  (sections.filter (·.contains offset)).map Section.style

variable {sections first second : List Section} {sec : Section} {offset : Nat}

theorem stylesAt_append (first second : List Section) (offset : Nat) :
    stylesAt (first ++ second) offset = stylesAt first offset ++ stylesAt second offset := by
  simp only [stylesAt, List.filter_append, List.map_append]

theorem stylesAt_cons_of_contains (inside : sec.offset ≤ offset ∧ offset < sec.stop) :
    stylesAt (sec :: sections) offset = sec.style :: stylesAt sections offset := by
  rw [stylesAt, List.filter_cons, if_pos (contains_iff.mpr inside), List.map_cons]
  rfl

/-- A section shows nothing at a byte outside of it. -/
theorem stylesAt_cons_of_not_contains (outside : offset < sec.offset ∨ sec.stop ≤ offset) :
    stylesAt (sec :: sections) offset = stylesAt sections offset := by
  have absent : ¬ sec.contains offset = true := by
    rw [contains_iff]
    omega
  rw [stylesAt, List.filter_cons, if_neg absent]
  rfl

/-- Before all sections nothing is shown. -/
theorem stylesAt_eq_nil (before : ∀ sec ∈ sections, offset < sec.offset) :
    stylesAt sections offset = [] := by
  induction sections with
  | nil => rfl
  | cons sec rest ih =>
      rw [stylesAt_cons_of_not_contains (.inl (before sec List.mem_cons_self))]
      exact ih fun other member => before other (List.mem_cons_of_mem _ member)

/-- There are styles at a byte where one of the sections contains it. -/
theorem stylesAt_ne_nil_iff :
    stylesAt sections offset ≠ [] ↔ ∃ sec ∈ sections, sec.offset ≤ offset ∧ offset < sec.stop := by
  rw [stylesAt, ne_eq, List.map_eq_nil_iff, ← ne_eq, ← List.isEmpty_eq_false_iff]
  simp only [List.isEmpty_eq_false_iff_exists_mem, List.mem_filter, contains_iff]

end Section

end Highlight
