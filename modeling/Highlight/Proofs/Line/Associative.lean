import Highlight.Proofs.Line.Cut
import Highlight.Proofs.Line.Overlay

/-! # Laying several lines over one another

A byte of a line that others are laid over lies in the sections of that line and behind them in pieces of
the others' sections, each cut around the byte at the starts and ends of what lies before it
(`Highlight.StyledLine.covering_place`). To cut a section at the pieces of two lines comes to cutting it at
the one line's sections and then at the other's, so it is the same in which order lines are put together
(`Highlight.StyledLine.merge_monoid`).
-/

namespace Highlight

open Section (covering cut)

namespace OverlayWalk.Sound

variable {line : StyledLine} {laid : List Section} {reached : Nat} {walk : OverlayWalk} {sec : Section}

/-- One more section of the overlay adds to each of its bytes the piece of it around the byte. -/
theorem covering_place (sound : walk.Sound line laid reached) (early : reached ≤ sec.offset)
    (fits : ∀ earlier ∈ laid, earlier.allows sec = true)
    (within : line.offset ≤ sec.offset ∧ sec.stop ≤ line.stop) (offset : Nat) :
    covering (walk.place sec).sections offset =
      covering walk.sections offset ++ (covering [sec] offset).map (cut line.sections offset) := by
  have bounds : ∀ place, sec.offset < place → place < sec.stop →
      (IsEdge (line.extent :: walk.sections) place ↔ IsEdge line.sections place) := by
    intro place late before
    have outside : ¬ (place = line.extent.offset ∨ place = line.extent.stop) := by
      show ¬ (place = line.offset ∨ place = line.stop)
      omega
    constructor
    · intro edge
      have around := sound.isEdge_of_laid fits (Nat.le_of_lt late) (Nat.le_of_lt before) edge
      rw [IsEdge.cons_iff, IsEdge.cons_iff] at around
      exact (around.resolve_left (by omega)).resolve_left outside
    · intro edge
      exact (edge.mono sound.woven.sublist.subset).mono (List.subset_cons_self _ _)
  obtain ⟨ready, same⟩ := Ready.passTo sound.toReady early
  have sections : (OverlayWalk.passTo sec.offset walk.passed walk.ends walk.ahead).sections =
      walk.sections := same
  rw [OverlayWalk.place]
  generalize OverlayWalk.passTo sec.offset walk.passed walk.ends walk.ahead = there
    at ready sections
  have laidThere := ready.laid
  rw [sections] at laidThere
  show covering (there.passed.reverse ++ placePieces _ _ _ _ _) offset = _
  rw [← sections, OverlayWalk.sections, Section.covering_append, Section.covering_append,
    List.append_assoc]
  congr 1
  by_cases inside : sec.offset ≤ offset ∧ offset < sec.stop
  · have known : ∀ place, sec.offset < place → place < sec.stop →
        IsEdge (line.extent :: walk.sections) place → IsEdge (there.passed ++ there.ahead) place := by
      intro place late before edge
      have own := ((bounds place late before).mp edge).mono sound.woven.sublist.subset
      rw [← sections, OverlayWalk.sections] at own
      exact own.mono (by simp)
    rw [laidThere.covering_inside (Nat.le_refl _) (.inl rfl) ready.passed known inside,
      Section.cut_congr inside bounds, Section.covering_cons, if_pos inside]
    rfl
  · have outside : offset < sec.offset ∨ sec.stop ≤ offset := by omega
    rw [laidThere.covering_outside outside, Section.covering_cons_of_not_contains outside]
    exact (List.append_nil _).symm

/-- All sections of the overlay add to each of their bytes the piece of them around it. -/
theorem covering_foldl (overlay : List Section) (sound : walk.Sound line laid reached)
    (late : ∀ sec ∈ overlay, reached ≤ sec.offset)
    (nested : (laid ++ overlay).Pairwise fun first second => first.allows second = true)
    (within : ∀ sec ∈ overlay, line.offset ≤ sec.offset ∧ sec.stop ≤ line.stop) (offset : Nat) :
    covering (overlay.foldl OverlayWalk.place walk).sections offset =
      covering walk.sections offset ++ (covering overlay offset).map (cut line.sections offset) := by
  induction overlay generalizing walk laid reached with
  | nil => exact (List.append_nil _).symm
  | cons sec rest ih =>
      obtain ⟨_, apart, across⟩ := List.pairwise_append.mp nested
      obtain ⟨here, further⟩ := List.forall_mem_cons.mp within
      have early : reached ≤ sec.offset := late sec List.mem_cons_self
      have fits : ∀ earlier ∈ laid, earlier.allows sec = true := fun earlier member =>
        across earlier member sec List.mem_cons_self
      have behind : ∀ other ∈ rest, sec.offset ≤ other.offset := fun other member =>
        Section.le_offset_of_allows ((List.pairwise_cons.mp apart).1 other member)
      rw [List.append_cons] at nested
      rw [List.foldl_cons, ih (sound.place early fits) behind nested further,
        sound.covering_place early fits here, List.append_assoc, ← List.map_append,
        ← Section.covering_append]
      rfl

end OverlayWalk.Sound

namespace StyledLine

variable {line overlay first second third : StyledLine} {number offset length : Nat}

/-- A line that obeys the nesting rule and has no empty section, as one of several for the same stretch
of text. -/
structure IsLayer (number offset length : Nat) (line : StyledLine) : Prop where
  number : line.number = number
  offset : line.offset = offset
  length : line.length = length
  valid : line.validate = .ok ()
  filled : ∀ sec ∈ line.sections, 0 < sec.length

/-- Each byte lies in the sections of the line and behind them in the pieces of the overlay's sections
around it. -/
theorem covering_place (valid : line.validate = .ok ()) (overlayValid : overlay.validate = .ok ())
    (within : ∀ sec ∈ overlay.sections, line.offset ≤ sec.offset ∧ sec.stop ≤ line.stop)
    (place : Nat) :
    covering (line.place overlay).sections place =
      covering line.sections place ++ (covering overlay.sections place).map (cut line.sections place) := by
  have nested := ((checkSections_eq_ok_iff _ _ _ _).mp valid).2
  have overlayNested := ((checkSections_eq_ok_iff _ _ _ _).mp overlayValid).2
  exact (OverlayWalk.Sound.start nested).covering_foldl overlay.sections
    (fun sec _ => Nat.zero_le _) overlayNested within place

namespace IsLayer

/-- A line without sections is a layer. -/
theorem bare (number offset length : Nat) :
    IsLayer number offset length ⟨number, offset, length, []⟩ where
  number := rfl
  offset := rfl
  length := rfl
  valid := rfl
  filled := List.forall_mem_nil _

/-- The sections of a layer lie on every other layer. -/
theorem within (layer : IsLayer number offset length first) (other : IsLayer number offset length second) :
    ∀ sec ∈ second.sections, first.offset ≤ sec.offset ∧ sec.stop ≤ first.stop := by
  have same : second.offset = first.offset ∧ second.stop = first.stop := by
    rw [stop, stop, layer.offset, layer.length, other.offset, other.length]
    exact ⟨rfl, rfl⟩
  rw [← same.1, ← same.2]
  exact ((checkSections_eq_ok_iff _ _ _ _).mp other.valid).1

theorem covering_place (layer : IsLayer number offset length first)
    (other : IsLayer number offset length second) (place : Nat) :
    covering (first.place second).sections place =
      covering first.sections place ++ (covering second.sections place).map (cut first.sections place) :=
  StyledLine.covering_place layer.valid other.valid (layer.within other) place

/-- Two layers of the same stretch can be laid over one another, and give a layer again. -/
theorem place (layer : IsLayer number offset length first) (other : IsLayer number offset length second) :
    IsLayer number offset length (first.place second) := by
  have fits := (validate_place_iff layer.valid other.valid).mpr fun sec member _ =>
    layer.within other sec member
  refine ⟨layer.number, layer.offset, layer.length, fits, fun sec member => ?_⟩
  rcases (woven_place layer.valid other.valid fits).mem_or_added member with own | ⟨whole, _, piece⟩
  · exact layer.filled sec own
  · exact piece.nonempty

theorem merge_eq (layer : IsLayer number offset length first)
    (other : IsLayer number offset length second) :
    first.merge second = (first.place second, .ok ()) := by
  rw [merge_of_valid layer.valid other.valid, (layer.place other).valid]

/-- Layers whose bytes lie in the same sections are the same. -/
theorem ext (layer : IsLayer number offset length first) (other : IsLayer number offset length second)
    (same : ∀ place, covering first.sections place = covering second.sections place) :
    first = second := by
  have sections : first.sections = second.sections :=
    Section.eq_of_covering_eq layer.filled other.filled
      ((checkSections_eq_ok_iff _ _ _ _).mp layer.valid).2
      ((checkSections_eq_ok_iff _ _ _ _).mp other.valid).2 same
  obtain ⟨rfl, rfl, rfl, _, _⟩ := layer
  obtain ⟨number, offset, length, _, _⟩ := other
  cases first
  cases second
  simp_all

/-- A section that is placed leaves the piece around each of its bytes. -/
theorem cut_mem (layer : IsLayer number offset length first)
    (other : IsLayer number offset length second) {sec : Section} (member : sec ∈ second.sections)
    {place : Nat} (inside : sec.offset ≤ place ∧ place < sec.stop) :
    sec.cut first.sections place ∈ (first.place second).sections := by
  have covers : sec ∈ covering second.sections place := Section.mem_covering_iff.mpr ⟨member, inside⟩
  apply List.mem_of_mem_filter
  show _ ∈ covering (first.place second).sections place
  rw [layer.covering_place other]
  exact List.mem_append_right _ (List.mem_map_of_mem covers)

/-- Sections start and end in the result where they do in the two lines. -/
theorem isEdge_place_iff (layer : IsLayer number offset length first)
    (other : IsLayer number offset length second) (place : Nat) :
    IsEdge (second.sections ++ first.sections) place ↔ IsEdge (first.place second).sections place := by
  have woven := woven_place layer.valid other.valid (layer.place other).valid
  constructor
  · rintro ⟨sec, member, at_⟩
    rcases List.mem_append.mp member with overlaid | own
    · have filled := other.filled sec overlaid
      have stop : sec.stop = sec.offset + sec.length := rfl
      rcases at_ with rfl | rfl
      · have inside : sec.offset ≤ sec.offset ∧ sec.offset < sec.stop := by omega
        have around := Section.CutAround.cut first.sections inside
        have start := Nat.le_antisymm around.starts around.covers.1
        exact ⟨_, layer.cut_mem other overlaid inside, .inl start⟩
      · have inside : sec.offset ≤ sec.stop - 1 ∧ sec.stop - 1 < sec.stop := by omega
        have around := Section.CutAround.cut first.sections inside
        have last := Nat.le_antisymm (Nat.le_of_pred_lt around.covers.2) around.ends
        exact ⟨_, layer.cut_mem other overlaid inside, .inr last⟩
    · exact ⟨sec, woven.sublist.subset own, at_⟩
  · rintro ⟨sec, member, at_⟩
    rcases woven.mem_or_added member with own | ⟨whole, listed, piece⟩
    · exact ⟨sec, List.mem_append_right _ own, at_⟩
    · have known : whole :: first.sections ⊆ second.sections ++ first.sections :=
        List.cons_subset.mpr ⟨List.mem_append_left _ listed, List.subset_append_right _ _⟩
      rcases at_ with rfl | rfl
      · exact piece.opens.mono known
      · exact piece.closes.mono known

theorem bare_place (layer : IsLayer number offset length line) :
    StyledLine.place ⟨number, offset, length, []⟩ line = line := by
  have empty := bare number offset length
  refine (empty.place layer).ext layer fun place => ?_
  rw [empty.covering_place layer]
  exact List.map_id _

/-- Placing layers is associative. Around every byte both sides have the same sections of the lower layers,
and the piece of a section of the third that both leave is cut at the same edges. -/
theorem place_assoc (layer : IsLayer number offset length first)
    (other : IsLayer number offset length second) (top : IsLayer number offset length third) :
    (first.place second).place third = first.place (second.place third) := by
  refine ((layer.place other).place top).ext (layer.place (other.place top)) fun place => ?_
  rw [(layer.place other).covering_place top, layer.covering_place other,
    layer.covering_place (other.place top), other.covering_place top, List.map_append, List.map_map,
    List.append_assoc]
  congr 2
  apply List.map_congr_left
  intro sec member
  have inside := (Section.mem_covering_iff.mp member).2
  calc cut (first.place second).sections place sec
      = cut (second.sections ++ first.sections) place sec :=
        Section.cut_congr inside fun edge _ _ => (layer.isEdge_place_iff other edge).symm
    _ = cut first.sections place (cut second.sections place sec) := Section.cut_append _ _ _ _

end IsLayer

/-- **Merging as a monoid.** Lines for the same stretch of text that obey the nesting rule and have no
empty section can be merged, and the result is such a line again. A line without sections changes nothing,
above or below, and of several lines it does not matter which two are merged first. -/
theorem merge_monoid (number offset length : Nat) :
    let bare : StyledLine := ⟨number, offset, length, []⟩
    (∀ line, IsLayer number offset length line →
      line.merge bare = (line, .ok ()) ∧ bare.merge line = (line, .ok ())) ∧
    ∀ first second third, IsLayer number offset length first → IsLayer number offset length second →
      IsLayer number offset length third →
      (first.merge second).2 = .ok () ∧ (second.merge third).2 = .ok () ∧
      IsLayer number offset length (first.merge second).1 ∧
      IsLayer number offset length (second.merge third).1 ∧
      ((first.merge second).1.merge third).2 = .ok () ∧
      (first.merge second).1.merge third = first.merge (second.merge third).1 := by
  intro bare
  have empty := IsLayer.bare number offset length
  refine ⟨fun line layer => ⟨?_, ?_⟩, fun first second third layer other top => ?_⟩
  · exact layer.merge_eq empty
  · rw [empty.merge_eq layer, layer.bare_place]
  · have lower := layer.place other
    have upper := other.place top
    rw [layer.merge_eq other, other.merge_eq top, lower.merge_eq top, layer.merge_eq upper,
      layer.place_assoc other top]
    exact ⟨rfl, rfl, lower, upper, rfl, rfl⟩

/-- A section below two others that is cut where one of them ends and the other one starts. -/
theorem merge_monoid_crossing :
    let first : StyledLine := ⟨1, 0, 10, [⟨5, 5, .colored .red⟩]⟩
    let second : StyledLine := ⟨1, 0, 10, [⟨0, 7, .colored .green⟩]⟩
    let third : StyledLine := ⟨1, 0, 10, [⟨0, 10, .colored .blue⟩]⟩
    IsLayer 1 0 10 first ∧ IsLayer 1 0 10 second ∧ IsLayer 1 0 10 third ∧
      first.merge ⟨1, 0, 10, []⟩ = (first, .ok ()) ∧
      ((first.merge second).1.merge third).1.sections =
        [⟨0, 5, .colored .green⟩, ⟨0, 5, .colored .blue⟩, ⟨5, 5, .colored .red⟩,
          ⟨5, 2, .colored .green⟩, ⟨5, 2, .colored .blue⟩, ⟨7, 3, .colored .blue⟩] ∧
      (first.merge (second.merge third).1).1.sections =
        ((first.merge second).1.merge third).1.sections := by
  intro first second third
  have layer : IsLayer 1 0 10 first := ⟨rfl, rfl, rfl, by decide, by decide⟩
  have other : IsLayer 1 0 10 second := ⟨rfl, rfl, rfl, by decide, by decide⟩
  have top : IsLayer 1 0 10 third := ⟨rfl, rfl, rfl, by decide, by decide⟩
  obtain ⟨unit, assoc⟩ := merge_monoid 1 0 10
  obtain ⟨_, _, _, _, _, same⟩ := assoc first second third layer other top
  exact ⟨layer, other, top, (unit first layer).1, by decide, by rw [same]⟩

end StyledLine

end Highlight
