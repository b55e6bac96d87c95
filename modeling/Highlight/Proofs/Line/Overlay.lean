import Highlight.Line.Overlay
import Highlight.Proofs.Line.Laid

/-! # Laying lines over one another

Each section of an overlay ends up in pieces among the sections of the line, which stay as they were
(`Highlight.StyledLine.merge_exact`). The walk over the line keeps the ends of the sections it has passed
on a stack, and what matters of that stack is that an end which is still to come lies below smaller ends
only (`Highlight.Waits`), so that no piece reaches beyond it.
-/

namespace Highlight

open Section (stylesAt)

/-- Whether an end is on a stack with only smaller ends above it. -/
inductive Waits (stop : Nat) : List Nat → Prop where
  | top {ends : List Nat} : Waits stop (stop :: ends)
  | under {first : Nat} {ends : List Nat} (earlier : first ≤ stop) (waits : Waits stop ends) :
      Waits stop (first :: ends)

/-- Whether the ends of the sections passed that lie beyond `start` wait on the stack. -/
def Tracks (before : List Section) (start : Nat) (ends : List Nat) : Prop :=
  ∀ sec ∈ before, sec.stop ≤ start ∨ Waits sec.stop ends

theorem Waits.le_of_cons {stop first : Nat} {ends : List Nat} (waits : Waits stop (first :: ends)) :
    first ≤ stop := by
  cases waits with
  | top => exact Nat.le_refl _
  | under earlier _ => exact earlier

theorem dropClosed_cons_cons (offset first second : Nat) (rest : List Nat) :
    dropClosed offset (first :: second :: rest) =
      if first ≤ offset then dropClosed offset (second :: rest) else first :: second :: rest := rfl

/-- Dropping the ends that are reached leaves an end waiting, unless it is reached itself. -/
theorem Waits.dropClosed {stop : Nat} {ends : List Nat} (waits : Waits stop ends) (offset : Nat) :
    stop ≤ offset ∨ Waits stop (dropClosed offset ends) := by
  induction waits with
  | @top ends =>
      cases ends with
      | nil => exact .inr .top
      | cons second rest =>
          by_cases closed : stop ≤ offset
          · exact .inl closed
          · rw [dropClosed_cons_cons, if_neg closed]
            exact .inr .top
  | @under first ends earlier waits ih =>
      cases ends with
      | nil => cases waits
      | cons second rest =>
          rw [dropClosed_cons_cons]
          split
          · exact ih
          · exact .inr (.under earlier waits)

/-- Dropping ends adds none. -/
theorem mem_of_mem_dropClosed {offset stop : Nat} {ends : List Nat}
    (member : stop ∈ dropClosed offset ends) : stop ∈ ends := by
  induction ends with
  | nil => exact member
  | cons first rest ih =>
      cases rest with
      | nil => exact member
      | cons second others =>
          rw [dropClosed_cons_cons] at member
          split at member
          · exact List.mem_cons_of_mem _ (ih member)
          · exact member

namespace Tracks

variable {before : List Section} {start : Nat} {ends : List Nat}

theorem of_le (tracks : Tracks before start ends) {later : Nat} (ahead : start ≤ later) :
    Tracks before later ends :=
  fun sec member => (tracks sec member).imp_left fun ended => Nat.le_trans ended ahead

theorem dropClosed (tracks : Tracks before start ends) {offset : Nat} (early : offset ≤ start) :
    Tracks before start (dropClosed offset ends) := by
  intro sec member
  rcases tracks sec member with ended | waits
  · exact .inl ended
  · exact (waits.dropClosed offset).imp_left fun ended => Nat.le_trans ended early

/-- The end on top of the stack may go once everything up to it is dealt with. -/
theorem pop {top place : Nat} {rest : List Nat} (tracks : Tracks before start (top :: rest))
    (late : start ≤ place) (covers : top ≤ place) : Tracks before place rest := by
  intro sec member
  rcases tracks sec member with ended | waits
  · exact .inl (Nat.le_trans ended late)
  · cases waits with
    | top => exact .inl covers
    | under _ waits => exact .inr waits

/-- A section is passed: the ends that it closes are dropped and its own is put on top. -/
theorem pass (tracks : Tracks before start ends) {next : Section} (reached : next.offset ≤ start)
    (fits : ∀ sec ∈ before, sec.allows next = true) :
    Tracks (next :: before) start (next.stop :: Highlight.dropClosed next.offset ends) := by
  refine List.forall_mem_cons.mpr ⟨.inr .top, fun sec member => ?_⟩
  rcases tracks.dropClosed reached sec member with ended | waits
  · exact .inl ended
  · rcases Section.allows_iff.mp (fits sec member) with apart | ⟨_, within⟩
    · exact .inl (Nat.le_trans apart reached)
    · exact .inr (.under within waits)

end Tracks

/-- What has come of a section that is laid over others in pieces from `start` on: pieces that may stand
in front of the others, the place reached, and the ends that remain. -/
structure Progress (base : List Section) (whole : Section) (before ahead : List Section) (start : Nat)
    (outcome : List Section × Nat × List Nat) : Prop where
  late : start ≤ outcome.2.1
  tracks : Tracks before outcome.2.1 outcome.2.2
  kept : ∀ stop ∈ outcome.2.2, IsEdge (whole :: base) stop
  laid : ∀ result, Laid base whole before outcome.2.1 ahead result →
    Laid base whole before start ahead (outcome.1 ++ result)

section Pieces

variable {base before ahead : List Section} {whole : Section} {start limit : Nat} {ends : List Nat}

/-- Cutting stops before the limit, at a place from which no end is in the way of it. -/
theorem cutAtEnds_progress (tracks : Tracks before start ends)
    (edges : ∀ stop ∈ ends, IsEdge (whole :: base) stop) (forward : start < limit)
    (within : limit ≤ whole.stop) (free : ∀ sec ∈ ahead, limit ≤ sec.offset) :
    Progress base whole before ahead start (cutAtEnds whole.style start limit ends) ∧
      (cutAtEnds whole.style start limit ends).2.1 < limit ∧
      ∀ sec ∈ before, sec.stop ≤ (cutAtEnds whole.style start limit ends).2.1 ∨ limit ≤ sec.stop := by
  induction ends generalizing start with
  | nil =>
      refine ⟨⟨Nat.le_refl _, tracks, edges, fun _ laid => laid⟩, forward, fun sec member => ?_⟩
      exact .inl ((tracks sec member).resolve_right nofun)
  | cons top rest ih =>
      obtain ⟨topEdge, restEdges⟩ := List.forall_mem_cons.mp edges
      have clear : ∀ sec ∈ before, sec.stop ≤ start ∨ top ≤ sec.stop := fun sec member =>
        (tracks sec member).imp_right Waits.le_of_cons
      by_cases beyond : limit ≤ top
      · rw [cutAtEnds, if_pos beyond]
        refine ⟨⟨Nat.le_refl _, tracks, edges, fun _ laid => laid⟩, forward, fun sec member => ?_⟩
        exact (clear sec member).imp_right (Nat.le_trans beyond)
      · rw [cutAtEnds, if_neg beyond]
        by_cases cuts : start < top
        · obtain ⟨progress, short, unobstructed⟩ := ih
            (tracks.pop (Nat.le_of_lt cuts) (Nat.le_refl _)) restEdges (Nat.lt_of_not_le beyond)
          rw [if_pos cuts]
          refine ⟨⟨Nat.le_trans (Nat.le_of_lt cuts) progress.late, progress.tracks, progress.kept,
            fun result laid => ?_⟩, short, unobstructed⟩
          have inside : top ≤ whole.stop := by omega
          exact .piece cuts inside topEdge clear
            (fun sec member => Nat.le_trans (Nat.le_of_lt (Nat.lt_of_not_le beyond)) (free sec member))
            (progress.laid result laid)
        · rw [if_neg cuts]
          exact ih (tracks.pop (Nat.le_refl _) (Nat.le_of_not_lt cuts)) restEdges forward

/-- Pieces up to a limit are progress, by induction on the ends that are passed on the way, and the limit is
reached. -/
theorem piecesBetween_progress (tracks : Tracks before start ends)
    (edges : ∀ stop ∈ ends, IsEdge (whole :: base) stop) (limitEdge : IsEdge (whole :: base) limit)
    (within : limit ≤ whole.stop) (free : ∀ sec ∈ ahead, limit ≤ sec.offset) :
    Progress base whole before ahead start (piecesBetween whole.style start limit ends) ∧
      limit ≤ (piecesBetween whole.style start limit ends).2.1 := by
  by_cases nothing : limit ≤ start
  · rw [piecesBetween, if_pos nothing]
    exact ⟨⟨Nat.le_refl _, tracks, edges, fun _ laid => laid⟩, nothing⟩
  · obtain ⟨progress, short, unobstructed⟩ := cutAtEnds_progress
      (tracks.dropClosed (Nat.le_refl start))
      (fun stop member => edges stop (mem_of_mem_dropClosed member)) (Nat.lt_of_not_le nothing)
      within free
    rw [piecesBetween, if_neg nothing]
    refine ⟨⟨Nat.le_of_lt (Nat.lt_of_not_le nothing),
      progress.tracks.of_le (Nat.le_of_lt short), progress.kept, fun result laid => ?_⟩,
      Nat.le_refl _⟩
    rw [List.append_assoc]
    exact progress.laid _ (.piece short within limitEdge unobstructed free laid)

/-- The pieces of a section are placed as they should be. -/
theorem placePieces_laid (tracks : Tracks before start ends)
    (edges : ∀ stop ∈ ends, IsEdge (whole :: base) stop) (known : ahead ⊆ base)
    (across : ∀ sec ∈ before, ∀ next ∈ ahead, sec.allows next = true)
    (apart : ahead.Pairwise fun first second => first.allows second = true) :
    Laid base whole before start ahead (placePieces whole.style whole.stop start ends ahead) := by
  have stopEdge : IsEdge (whole :: base) whole.stop := .stop List.mem_cons_self
  induction ahead generalizing before start ends with
  | nil =>
      obtain ⟨progress, reached⟩ := piecesBetween_progress tracks edges stopEdge
        (Nat.le_refl _) (List.forall_mem_nil _)
      rw [placePieces, ← List.append_nil (piecesBetween _ _ _ _).1]
      exact progress.laid [] (.done reached)
  | cons next rest ih =>
      obtain ⟨fits, apartRest⟩ := List.pairwise_cons.mp apart
      obtain ⟨nextKnown, restKnown⟩ := List.cons_subset.mp known
      have behind : ∀ sec ∈ next :: rest, next.offset ≤ sec.offset :=
        List.forall_mem_cons.mpr ⟨Nat.le_refl _, fun sec member =>
          Section.le_offset_of_allows (fits sec member)⟩
      by_cases beyond : whole.stop ≤ next.offset
      · obtain ⟨progress, reached⟩ := piecesBetween_progress tracks edges stopEdge (Nat.le_refl _)
          fun sec member => Nat.le_trans beyond (behind sec member)
        rw [placePieces, if_pos beyond]
        exact progress.laid _ (.done reached)
      · have nextEdge : IsEdge (whole :: base) next.offset :=
          .offset (List.mem_cons_of_mem _ nextKnown)
        obtain ⟨progress, reached⟩ := piecesBetween_progress tracks edges nextEdge
          (Nat.le_of_lt (Nat.lt_of_not_le beyond)) behind
        rw [placePieces, if_neg beyond]
        refine progress.laid _ (.keep reached (ih ?_ ?_ restKnown ?_ apartRest))
        · exact progress.tracks.pass reached fun sec member =>
            across sec member next List.mem_cons_self
        · refine List.forall_mem_cons.mpr ⟨.stop (List.mem_cons_of_mem _ nextKnown), ?_⟩
          exact fun stop member => progress.kept stop (mem_of_mem_dropClosed member)
        · exact List.forall_mem_cons.mpr ⟨fits, fun sec member other listed =>
            across sec member other (List.mem_cons_of_mem _ listed)⟩

end Pieces

/-- The whole line as a section. -/
def StyledLine.extent (line : StyledLine) : Section := ⟨line.offset, line.length, .plain⟩

namespace OverlayWalk

/-- A walk that has passed sections which start no later than `place`, and keeps their ends. -/
structure Ready (extent : Section) (place : Nat) (walk : OverlayWalk) : Prop where
  nested : walk.sections.Pairwise fun first second => first.allows second = true
  passed : ∀ sec ∈ walk.passed, sec.offset ≤ place
  tracks : Tracks walk.passed place walk.ends
  kept : ∀ stop ∈ walk.ends, IsEdge (extent :: walk.passed) stop

/-- A walk may pass the sections that start up to a place; it is ready there and the sections are the
same. -/
theorem Ready.passTo {extent : Section} {place offset : Nat} {passed ahead : List Section}
    {ends : List Nat} (ready : Ready extent place ⟨passed, ends, ahead⟩) (early : place ≤ offset) :
    (passTo offset passed ends ahead).Ready extent offset ∧
      (passTo offset passed ends ahead).sections = passed.reverse ++ ahead := by
  obtain ⟨nested, startedBefore, tracksBefore, kept⟩ := ready
  have behind : ∀ sec ∈ passed, sec.offset ≤ offset := fun sec member =>
    Nat.le_trans (startedBefore sec member) early
  have tracks : Tracks passed offset ends := tracksBefore.of_le early
  clear early startedBefore tracksBefore
  induction ahead generalizing passed ends with
  | nil => exact ⟨⟨nested, behind, tracks, kept⟩, rfl⟩
  | cons next rest ih =>
      by_cases stays : offset < next.offset
      · rw [OverlayWalk.passTo, if_pos stays]
        exact ⟨⟨nested, behind, tracks, kept⟩, rfl⟩
      · have reached : next.offset ≤ offset := Nat.le_of_not_lt stays
        have moved : (next :: passed).reverse ++ rest = passed.reverse ++ next :: rest := by simp
        have fits : ∀ sec ∈ passed, sec.allows next = true := fun sec member =>
          (List.pairwise_append.mp nested).2.2 sec (List.mem_reverse.mpr member) next
            List.mem_cons_self
        have further := @ih (next :: passed) (next.stop :: dropClosed next.offset ends)
        rw [OverlayWalk.passTo, if_neg stays]
        rw [moved] at further
        refine further ?_ ?_ (List.forall_mem_cons.mpr ⟨reached, behind⟩) (tracks.pass reached fits)
        · show ((next :: passed).reverse ++ rest).Pairwise _
          rw [moved]
          exact nested
        · refine List.forall_mem_cons.mpr ⟨.stop (by simp), fun stop member => ?_⟩
          have edge := kept stop (mem_of_mem_dropClosed member)
          exact edge.mono (List.cons_subset_cons _ (List.subset_cons_self _ _))

/-- The pieces of a section that starts where the walk stands are placed as they should be. -/
theorem Ready.laid {extent sec : Section} {walk : OverlayWalk} (ready : Ready extent sec.offset walk) :
    Laid (extent :: walk.sections) sec walk.passed sec.offset walk.ahead
      (placePieces sec.style sec.stop sec.offset walk.ends walk.ahead) := by
  obtain ⟨_, ahead, across⟩ := List.pairwise_append.mp ready.nested
  have aheadKnown : walk.ahead ⊆ extent :: walk.sections := fun other member =>
    List.mem_cons_of_mem _ (List.mem_append_right _ member)
  have passedKnown : extent :: walk.passed ⊆ extent :: walk.sections :=
    List.cons_subset_cons _ fun other member =>
      List.mem_append_left _ (List.mem_reverse.mpr member)
  refine placePieces_laid ready.tracks (fun stop member => ?_) aheadKnown
    (fun passed member => across passed (List.mem_reverse.mpr member)) ahead
  exact ((ready.kept stop member).mono passedKnown).mono (List.subset_cons_self _ _)

/-- A walk over a line on which some sections have been laid. -/
structure Sound (line : StyledLine) (laid : List Section) (place : Nat) (walk : OverlayWalk) : Prop
    extends Ready line.extent place walk where
  styles : ∀ offset, stylesAt walk.sections offset =
    stylesAt line.sections offset ++ stylesAt laid offset
  woven : Woven (fun piece => ∃ whole ∈ laid, whole.HasPiece (line.extent :: line.sections) piece)
    line.sections walk.sections

namespace Sound

variable {line : StyledLine} {laid : List Section} {reached : Nat} {walk : OverlayWalk} {sec : Section}

/-- A walk over a line that obeys the nesting rule starts at its first section. -/
theorem start (nested : line.sections.Pairwise fun first second => first.allows second = true) :
    Sound line [] 0 ⟨[], [line.stop], line.sections⟩ where
  nested := nested
  passed := by simp
  tracks := by simp [Tracks]
  kept := by
    intro stop member
    rw [List.mem_singleton.mp member]
    exact .stop List.mem_cons_self
  styles := fun offset => (List.append_nil _).symm
  woven := .refl _

/-- Where pieces laid earlier start or end within a section, the line's own sections do, or it does. -/
theorem isEdge_of_laid (sound : walk.Sound line laid reached)
    (fits : ∀ earlier ∈ laid, earlier.allows sec = true) {place : Nat} (late : sec.offset ≤ place)
    (early : place ≤ sec.stop) (edge : IsEdge (line.extent :: walk.sections) place) :
    IsEdge (sec :: line.extent :: line.sections) place := by
  obtain ⟨other, member, at_⟩ := edge
  rcases List.mem_cons.mp member with rfl | member
  · exact IsEdge.cons_iff.mpr (.inr ⟨line.extent, List.mem_cons_self, at_⟩)
  · rcases sound.woven.mem_or_added member with own | ⟨whole, earlier, laidPiece⟩
    · exact IsEdge.cons_iff.mpr (.inr ⟨other, List.mem_cons_of_mem _ own, at_⟩)
    · have around : IsEdge (whole :: line.extent :: line.sections) place := by
        rcases at_ with rfl | rfl
        · exact laidPiece.opens
        · exact laidPiece.closes
      rcases IsEdge.cons_iff.mp around with ofWhole | ofLine
      · exact IsEdge.cons_iff.mpr
          (.inl (Section.edge_of_allows (fits whole earlier) late early ofWhole))
      · exact IsEdge.cons_iff.mpr (.inr ofLine)

/-- A piece that is cut at pieces laid earlier is cut at the line's own sections or at its own ends. -/
theorem hasPiece (sound : walk.Sound line laid reached)
    (fits : ∀ earlier ∈ laid, earlier.allows sec = true) {piece : Section}
    (cut : sec.HasPiece (line.extent :: walk.sections) piece) :
    sec.HasPiece (line.extent :: line.sections) piece :=
  cut.rebase fun _ late early edge => sound.isEdge_of_laid fits late early edge

/-- **One section.** A further section of the overlay is laid over the line. -/
theorem place (sound : walk.Sound line laid reached) (early : reached ≤ sec.offset)
    (fits : ∀ earlier ∈ laid, earlier.allows sec = true) :
    (walk.place sec).Sound line (laid ++ [sec]) sec.offset := by
  obtain ⟨ready, same⟩ := Ready.passTo sound.toReady early
  have sections : (OverlayWalk.passTo sec.offset walk.passed walk.ends walk.ahead).sections =
      walk.sections := same
  rw [OverlayWalk.place]
  generalize OverlayWalk.passTo sec.offset walk.passed walk.ends walk.ahead = there
    at ready sections
  obtain ⟨before, ahead, across⟩ := List.pairwise_append.mp ready.nested
  have fitsAhead : ∀ passed ∈ there.passed, ∀ next ∈ there.ahead, passed.allows next = true :=
    fun passed member => across passed (List.mem_reverse.mpr member)
  have laidThere := ready.laid
  rw [sections] at laidThere
  obtain ⟨acrossResult, result⟩ := laidThere.nested ready.passed fitsAhead ahead
  constructor
  · constructor
    · exact List.pairwise_append.mpr ⟨before, result, fun passed member =>
        acrossResult passed (List.mem_reverse.mp member)⟩
    · exact ready.passed
    · exact ready.tracks
    · exact ready.kept
  · intro offset
    have added : stylesAt [sec] offset =
        if sec.offset ≤ offset ∧ offset < sec.stop then [sec.style] else [] := by
      split
      · exact Section.stylesAt_cons_of_contains ‹_›
      · exact Section.stylesAt_cons_of_not_contains (by omega)
    calc stylesAt (there.passed.reverse ++ placePieces sec.style sec.stop sec.offset there.ends
          there.ahead) offset
        = stylesAt there.sections offset ++ stylesAt [sec] offset := by
          rw [OverlayWalk.sections, Section.stylesAt_append, Section.stylesAt_append,
            laidThere.stylesAt, List.append_assoc, added]
      _ = stylesAt line.sections offset ++ stylesAt (laid ++ [sec]) offset := by
          rw [sections, sound.styles, Section.stylesAt_append, List.append_assoc]
  · have pieces := (laidThere.woven (Nat.le_refl _) (.offset List.mem_cons_self)).prepend
      there.passed.reverse
    have earlier := sound.woven.imp fun piece ⟨whole, member, cut⟩ =>
      (⟨whole, List.mem_append_left [sec] member, cut⟩ : ∃ whole ∈ laid ++ [sec],
        whole.HasPiece (line.extent :: line.sections) piece)
    rw [← sections] at earlier
    exact earlier.trans (pieces.imp fun piece cut => ⟨sec, by simp, sound.hasPiece fits cut⟩)

/-- **A whole overlay.** All sections of the overlay are laid over the line, one after another. -/
theorem foldl (overlay : List Section) (sound : walk.Sound line laid reached)
    (late : ∀ sec ∈ overlay, reached ≤ sec.offset)
    (nested : (laid ++ overlay).Pairwise fun first second => first.allows second = true) :
    ∃ last, (overlay.foldl OverlayWalk.place walk).Sound line (laid ++ overlay) last := by
  induction overlay generalizing walk laid reached with
  | nil =>
      rw [List.append_nil]
      exact ⟨reached, sound⟩
  | cons sec rest ih =>
      obtain ⟨_, apart, across⟩ := List.pairwise_append.mp nested
      have fits : ∀ earlier ∈ laid, earlier.allows sec = true := fun earlier member =>
        across earlier member sec List.mem_cons_self
      have behind : ∀ other ∈ rest, sec.offset ≤ other.offset := fun other member =>
        Section.le_offset_of_allows ((List.pairwise_cons.mp apart).1 other member)
      rw [List.append_cons] at nested ⊢
      exact ih (sound.place (late sec List.mem_cons_self) fits) behind nested

end Sound

end OverlayWalk

namespace StyledLine

variable {line overlay : StyledLine}

/-- Placing the sections of a valid overlay one by one leaves a sound walk. -/
theorem place_sound (valid : line.validate = .ok ()) (overlayValid : overlay.validate = .ok ()) :
    ∃ place walk, (line.place overlay).sections = walk.sections ∧
      OverlayWalk.Sound line overlay.sections place walk := by
  have nested := ((checkSections_eq_ok_iff _ _ _ _).mp valid).2
  have overlayNested := ((checkSections_eq_ok_iff _ _ _ _).mp overlayValid).2
  obtain ⟨place, sound⟩ := (OverlayWalk.Sound.start nested).foldl overlay.sections
    (fun sec _ => Nat.zero_le _) overlayNested
  exact ⟨place, _, rfl, sound⟩

/-- Of two sections of the result the later one starts where the earlier has ended or lies inside it. -/
theorem nested_place (valid : line.validate = .ok ()) (overlayValid : overlay.validate = .ok ()) :
    (line.place overlay).sections.Pairwise fun first second => first.allows second = true := by
  obtain ⟨_, walk, sections, sound⟩ := place_sound valid overlayValid
  rw [sections]
  exact sound.nested

theorem merge_of_valid (valid : line.validate = .ok ()) (overlayValid : overlay.validate = .ok ()) :
    line.merge overlay = (line.place overlay, (line.place overlay).validate) := by
  rw [merge, valid, overlayValid]

/-- Each byte has the styles of the line and behind them those of the overlay. -/
theorem stylesAt_place (valid : line.validate = .ok ()) (overlayValid : overlay.validate = .ok ())
    (offset : Nat) :
    (line.place overlay).stylesAt offset = line.stylesAt offset ++ overlay.stylesAt offset := by
  obtain ⟨_, _, sections, sound⟩ := place_sound valid overlayValid
  have styles := sound.styles offset
  rw [← sections] at styles
  exact styles

/-- A section that is not empty and lies outside of the line makes the result invalid, and nothing else
does. -/
theorem validate_place_iff (valid : line.validate = .ok ())
    (overlayValid : overlay.validate = .ok ()) :
    (line.place overlay).validate = .ok () ↔
      ∀ sec ∈ overlay.sections, 0 < sec.length → line.offset ≤ sec.offset ∧ sec.stop ≤ line.stop := by
  obtain ⟨_, walk, sections, sound⟩ := place_sound valid overlayValid
  have lineInside := ((checkSections_eq_ok_iff _ _ _ _).mp valid).1
  have isValid := checkSections_eq_ok_iff line.offset line.stop 0 (line.place overlay).sections
  rw [sections] at isValid
  rw [validate, sections]
  refine isValid.trans ⟨?_, fun covered => ⟨?_, sound.nested⟩⟩
  · rintro ⟨inside, _⟩ sec member filled
    -- Each byte of the section is styled in the result.
    apply bounds_of_forall filled
    intro offset late early
    have shown : Section.stylesAt walk.sections offset ≠ [] := by
      rw [sound.styles]
      exact List.append_ne_nil_of_right_ne_nil _
        (Section.stylesAt_ne_nil_iff.mpr ⟨sec, member, late, early⟩)
    obtain ⟨other, listed, covers⟩ := Section.stylesAt_ne_nil_iff.mp shown
    have bounds := inside other listed
    exact ⟨Nat.le_trans bounds.1 covers.1, Nat.lt_of_lt_of_le covers.2 bounds.2⟩
  · intro sec member
    rcases sound.woven.mem_or_added member with own | ⟨whole, listed, piece⟩
    · exact lineInside sec own
    · have bounds := covered whole listed piece.whole_nonempty
      exact ⟨Nat.le_trans bounds.1 piece.starts, Nat.le_trans piece.ends bounds.2⟩

/-- What is added to the line are pieces of the overlay that are cut at the bounds of the line and at its
own sections. -/
theorem woven_place_extent (valid : line.validate = .ok ()) (overlayValid : overlay.validate = .ok ()) :
    Woven (fun piece => ∃ whole ∈ overlay.sections,
        whole.HasPiece (line.extent :: line.sections) piece)
      line.sections (line.place overlay).sections := by
  obtain ⟨_, walk, sections, sound⟩ := place_sound valid overlayValid
  rw [sections]
  exact sound.woven

/-- Where all of the overlay fits, what is added to the line are pieces of the overlay that are cut at the
line's own sections. -/
theorem woven_place (valid : line.validate = .ok ()) (overlayValid : overlay.validate = .ok ())
    (fits : (line.place overlay).validate = .ok ()) :
    Woven (fun piece => ∃ whole ∈ overlay.sections, whole.HasPiece line.sections piece)
      line.sections (line.place overlay).sections := by
  have covered := (validate_place_iff valid overlayValid).mp fits
  refine (woven_place_extent valid overlayValid).imp fun piece ⟨whole, member, cut⟩ =>
    ⟨whole, member, cut.rebase ?_⟩
  rintro place late early ⟨sec, listed, edge⟩
  rcases List.mem_cons.mp listed with rfl | own
  · have allowed : line.extent.allows whole = true :=
      Section.allows_iff.mpr (.inr (covered whole member cut.whole_nonempty))
    exact IsEdge.cons_iff.mpr (.inl (Section.edge_of_allows allowed late early edge))
  · exact IsEdge.cons_iff.mpr (.inr ⟨sec, own, edge⟩)

/-- **Exact merging.** Of two lines that obey the nesting rule the second can be laid over the first just
if its sections that are not empty lie within the first. The result then obeys the nesting rule. It has
the sections of the first line in their order and, besides, pieces of the overlay that are cut at those
sections, and each byte has the styles of the first line and behind them those of the overlay. -/
theorem merge_exact (line overlay : StyledLine) (valid : line.validate = .ok ())
    (overlayValid : overlay.validate = .ok ()) :
    ((line.merge overlay).2 = .ok () ↔
      ∀ sec ∈ overlay.sections, 0 < sec.length → line.offset ≤ sec.offset ∧ sec.stop ≤ line.stop) ∧
    ((line.merge overlay).2 = .ok () →
      (line.merge overlay).1.validate = .ok () ∧
      line.sections.Sublist (line.merge overlay).1.sections ∧
      Woven (fun piece => ∃ whole ∈ overlay.sections, whole.HasPiece line.sections piece)
        line.sections (line.merge overlay).1.sections ∧
      ∀ offset,
        (line.merge overlay).1.stylesAt offset = line.stylesAt offset ++ overlay.stylesAt offset ∧
        Style.layered ((line.merge overlay).1.stylesAt offset) =
          (Style.layered (line.stylesAt offset)).overlay
            (Style.layered (overlay.stylesAt offset))) := by
  rw [merge_of_valid valid overlayValid]
  refine ⟨validate_place_iff valid overlayValid, fun fits => ?_⟩
  have woven := woven_place valid overlayValid fits
  refine ⟨fits, woven.sublist, woven, fun offset => ?_⟩
  have styles := stylesAt_place valid overlayValid offset
  exact ⟨styles, by rw [styles, Style.layered_append]⟩

/-- Two nested sections over a line with a section that starts inside of both, and empty sections
about. -/
theorem merge_exact_nested :
    let line : StyledLine := ⟨1, 0, 20, [⟨5, 5, .colored .red⟩, ⟨7, 0, .colored .green⟩]⟩
    let overlay : StyledLine := ⟨1, 0, 20, [⟨0, 15, .colored .blue⟩, ⟨0, 8, .colored .cyan⟩,
      ⟨18, 0, .colored .black⟩]⟩
    line.validate = .ok () ∧ overlay.validate = .ok () ∧ (line.merge overlay).2 = .ok () ∧
      (line.merge overlay).1.stylesAt 6 = [.colored .red, .colored .blue, .colored .cyan] := by
  intro line overlay
  have valid : line.validate = .ok () := by decide
  have overlayValid : overlay.validate = .ok () := by decide
  have merged := merge_exact line overlay valid overlayValid
  have fits : (line.merge overlay).2 = .ok () := merged.1.mpr (by decide)
  have styles : line.stylesAt 6 ++ overlay.stylesAt 6 =
      [.colored .red, .colored .blue, .colored .cyan] := by decide
  exact ⟨valid, overlayValid, fits, ((merged.2 fits).2.2.2 6).1.trans styles⟩

end StyledLine

end Highlight
