import Highlight.Proofs.Scan.Painted

/-! # Painting at arbitrary places

A painter knows nothing of the text. Whatever strokes are made from left to right, each byte shows the
styles that are open between the strokes around it, and every place that the painter keeps is that of the
section it was kept for (`Highlight.Scan.paints_open_styles`). A text whose characters are all of one byte
has a boundary at every place, so that what holds of strokes between characters holds here.
-/

namespace Highlight

open Section (stylesAt)

namespace Scan

theorem byteLength_replicate (count : Nat) : Text.byteLength (List.replicate count 'a') = count := by
  induction count with
  | zero => rfl
  | succ count ih =>
      rw [List.replicate_succ, Text.byteLength_cons, ih]
      exact Nat.add_comm 1 count

theorem isBoundary_replicate {count stop : Nat} (within : count ≤ stop) :
    Text.IsBoundary (List.replicate stop 'a') count := by
  refine ⟨List.replicate count 'a', ⟨List.replicate (stop - count) 'a', ?_⟩,
    byteLength_replicate count⟩
  rw [List.replicate_append_replicate, Nat.add_sub_of_le within]

/-- Strokes made from left to right. -/
def LeftToRight (strokes : List Stroke) : Prop :=
  strokes.Pairwise fun first second => first.position ≤ second.position

variable {strokes before after : List Stroke} {start stop : Nat}

/-- Strokes from left to right are made in order on such a line. -/
theorem LeftToRight.inOrder (ordered : LeftToRight strokes)
    (late : ∀ stroke ∈ strokes, start ≤ stroke.position)
    (within : ∀ stroke ∈ strokes, stroke.position ≤ stop) (forward : start ≤ stop) :
    InOrder (List.replicate stop 'a') start strokes stop := by
  induction strokes generalizing start with
  | nil => exact .nil forward
  | cons stroke rest ih =>
      obtain ⟨behind, orderedRest⟩ := List.pairwise_cons.mp ordered
      obtain ⟨here, withinRest⟩ := List.forall_mem_cons.mp within
      exact .cons (late stroke List.mem_cons_self) (isBoundary_replicate here)
        (ih orderedRest behind withinRest here)

theorem LeftToRight.fromZero (ordered : LeftToRight strokes)
    (within : ∀ stroke ∈ strokes, stroke.position ≤ stop) :
    InOrder (List.replicate stop 'a') 0 strokes stop :=
  ordered.inOrder (fun _ _ => Nat.zero_le _) within (Nat.zero_le _)

/-- The strokes up to a byte are those before the byte's stretch. -/
theorem shownAt_append {offset : Nat} (early : ∀ stroke ∈ before, stroke.position ≤ offset)
    (late : ∀ stroke ∈ after, offset < stroke.position) :
    shownAt (before ++ after) offset = ((openStyles before).filterMap id).reverse := by
  have passed : before.filter (·.position ≤ offset) = before :=
    List.filter_eq_self.mpr fun stroke member => decide_eq_true (early stroke member)
  have ahead : after.filter (·.position ≤ offset) = [] :=
    List.filter_eq_nil_iff.mpr fun stroke member reached =>
      Nat.not_le_of_lt (late stroke member) (of_decide_eq_true reached)
  rw [shownAt, List.filter_append, passed, ahead, List.append_nil]

/-- The strokes that close every style that is still open. -/
def closing (strokes : List Stroke) (stop : Nat) : List Stroke :=
  List.replicate (openStyles strokes).length (.pop stop)

/-- Strokes from left to right stay so with the ones that close what is left open. -/
theorem LeftToRight.closing (ordered : LeftToRight strokes)
    (within : ∀ stroke ∈ strokes, stroke.position ≤ stop) :
    LeftToRight (strokes ++ closing strokes stop) ∧
      ∀ stroke ∈ strokes ++ Scan.closing strokes stop, stroke.position ≤ stop := by
  have last : ∀ stroke ∈ Scan.closing strokes stop, stroke.position = stop :=
    fun stroke member => congrArg Stroke.position (List.eq_of_mem_replicate member)
  have all : ∀ stroke ∈ strokes ++ Scan.closing strokes stop, stroke.position ≤ stop := by
    intro stroke member
    rcases List.mem_append.mp member with earlier | closes
    · exact within stroke earlier
    · exact Nat.le_of_eq (last stroke closes)
  refine ⟨List.pairwise_append.mpr ⟨ordered, ?_, fun stroke earlier other closes => ?_⟩, all⟩
  · refine List.pairwise_replicate.mpr (.inr (Nat.le_refl _))
  · exact last other closes ▸ within stroke earlier

namespace Painter

theorem foldl_pop_eq_draw (painter : Painter) (position : Nat) {Kept : Type} (opened : List Kept) :
    opened.foldl (fun painter _ => painter.pop position) painter =
      painter.draw (List.replicate opened.length (.pop position)) := by
  induction opened generalizing painter with
  | nil => rfl
  | cons _ rest ih => exact ih (painter.pop position)

/-- What a painter keeps is as it should be after some strokes. Each place of an open style is that of a
section, and the place that may be continued is that of a finished section, which is not open; an innermost
section that would be empty is the last one. -/
structure Tidy (strokes : List Stroke) (painter : Painter) : Prop where
  opened : painter.openStyles = Scan.openStyles strokes
  present : ∀ place, some place ∈ painter.opened → ∃ sec, painter.sections[place]? = some sec
  finished : ∀ place, painter.lastClosed = some place →
    ∃ sec, painter.sections[place]? = some sec ∧ 0 < sec.length ∧ some place ∉ painter.opened
  removed : ∀ place outer sec position, painter.opened = some place :: outer →
    painter.sections[place]? = some sec → (∀ stroke ∈ strokes, stroke.position ≤ position) →
    painter.origin + position - sec.offset = 0 → place + 1 = painter.sections.length

/-- Strokes from left to right leave a painter tidy, since they leave its sections nested. -/
theorem tidy_draw (origin : Nat) (ordered : LeftToRight strokes)
    (within : ∀ stroke ∈ strokes, stroke.position ≤ stop) :
    (({ origin := origin } : Painter).draw strokes).Tidy strokes := by
  have shows := (shows_empty (List.replicate stop 'a') origin).draw (ordered.fromZero within)
  have nested := shows.nested
  constructor
  · exact shows.opened
  · intro place member
    exact ⟨_, List.getElem?_eq_getElem (nested.present place (mem_openPlaces_of_mem_opened member))⟩
  · intro place last
    obtain ⟨inside, behind, _⟩ := nested.continued place last
    have closed : place ∉ (({ origin := origin } : Painter).draw strokes).openPlaces :=
      fun member => Nat.lt_irrefl place (behind place member)
    have found := List.getElem?_eq_getElem inside
    exact ⟨_, found, nested.nonempty place _ found closed,
      fun member => closed (mem_openPlaces_of_mem_opened member)⟩
  · intro place outer sec position innermost found passed empty
    have there := ((shows_empty (List.replicate position 'a') origin).draw
      (ordered.fromZero passed)).nested
    exact (there.length_of_empty innermost found empty).symm

end Painter

/-- Closing every style at the end is drawing a stroke for each that is open. -/
theorem popAll_eq_draw (origin : Nat) (ordered : LeftToRight strokes)
    (within : ∀ stroke ∈ strokes, stroke.position ≤ stop) :
    (({ origin := origin } : Painter).draw strokes).popAll stop =
      ({ origin := origin } : Painter).draw (strokes ++ closing strokes stop) := by
  have opened := (Painter.tidy_draw origin ordered within).opened
  have count : (({ origin := origin } : Painter).draw strokes).opened.length =
      (openStyles strokes).length := by
    rw [← opened, Painter.openStyles, List.length_map]
  rw [Painter.popAll, Painter.foldl_pop_eq_draw, count, Painter.draw_append]
  rfl

/-- **Painting.** Let strokes be made from left to right, and let all styles that are still open be closed
at a place behind them. Each byte then has the styles that are open between the two strokes around it, from
the outermost to the innermost, and outside of the strokes there are none. After each of the strokes, those
that close the open styles included, the painter's places are those of the right sections, and a section that
is removed because it is empty is the last one. -/
theorem paints_open_styles (origin : Nat) (ordered : LeftToRight strokes)
    (within : ∀ stroke ∈ strokes, stroke.position ≤ stop) :
    (∀ before after offset, strokes = before ++ after →
      (∀ stroke ∈ before, stroke.position ≤ offset) →
      (∀ stroke ∈ after, offset < stroke.position) → offset < stop →
      stylesAt (paintedSections origin strokes stop) (origin + offset) =
        ((openStyles before).filterMap id).reverse) ∧
    (∀ offset, offset < origin ∨ origin + stop ≤ offset →
      stylesAt (paintedSections origin strokes stop) offset = []) ∧
    paintedSections origin strokes stop =
      (({ origin := origin } : Painter).draw (strokes ++ closing strokes stop)).sections ∧
    ∀ before, before <+: strokes ++ closing strokes stop →
      (({ origin := origin } : Painter).draw before).Tidy before := by
  have inOrder : InOrder (List.replicate stop 'a') 0 strokes
      (Text.byteLength (List.replicate stop 'a')) := by
    rw [byteLength_replicate]
    exact ordered.fromZero within
  have shows := stylesAt_paintedSections inOrder origin
  rw [byteLength_replicate] at shows
  refine ⟨?_, fun offset outside => ?_, ?_, fun before starts => ?_⟩
  · rintro before after offset rfl early late inside
    rw [shows, if_pos (by omega), Nat.add_sub_cancel_left, shownAt_append early late]
  · rw [shows, if_neg (by omega)]
  · exact congrArg Painter.sections (popAll_eq_draw origin ordered within)
  · obtain ⟨orderedAll, withinAll⟩ := ordered.closing within
    exact Painter.tidy_draw origin (orderedAll.sublist starts.sublist)
      fun stroke member => withinAll stroke (starts.subset member)

/-- A red run is continued after a green one inside of it has come to nothing and an unstyled one has been
closed, and blue is opened behind it; what is still open is closed at 9. -/
theorem paints_open_styles_continued :
    let strokes : List Stroke := [.push (some (.colored .red)) 0, .push none 2,
      .push (some (.colored .green)) 2, .pop 2, .pop 3, .pop 4, .push (some (.colored .red)) 4,
      .push (some (.colored .blue)) 6]
    LeftToRight strokes ∧ (∀ stroke ∈ strokes, stroke.position ≤ 9) ∧
      paintedSections 10 strokes 9 = [⟨10, 9, .colored .red⟩, ⟨16, 3, .colored .blue⟩] ∧
      stylesAt (paintedSections 10 strokes 9) (10 + 5) = [.colored .red] ∧
      (({ origin := 10 } : Painter).draw (strokes.take 3)).Tidy (strokes.take 3) := by
  intro strokes
  have ordered : LeftToRight strokes := by
    unfold LeftToRight
    decide
  have within : ∀ stroke ∈ strokes, stroke.position ≤ 9 := by decide
  obtain ⟨shown, _, _, tidy⟩ := paints_open_styles 10 ordered within
  refine ⟨ordered, within, by decide, ?_, ?_⟩
  · exact shown (strokes.take 7) (strokes.drop 7) 5 rfl (by decide) (by decide) (by decide)
  · exact tidy (strokes.take 3) ((List.take_prefix 3 strokes).trans (List.prefix_append _ _))

end Scan

end Highlight
