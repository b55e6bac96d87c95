import Highlight.Proofs.Scan.Line

/-! # Painted sections are nested

A painter whose strokes are made in order always holds sections that are nested or disjoint, the outer one
first. What makes this work is which section may be continued: the one closed last lies behind every
section that is still open, and inside of none that is closed (`Highlight.Scan.Painter.Nested`).
-/

namespace Highlight

namespace Scan

/-- Whether a section lies in the part of a line before `position` and covers whole characters. -/
structure Placed (text : List Char) (origin position : Nat) (sec : Section) : Prop where
  starts : origin ≤ sec.offset
  ends : sec.stop ≤ origin + position
  opens : Text.IsBoundary text (sec.offset - origin)
  closes : Text.IsBoundary text (sec.stop - origin)

namespace Painter

/-- The places of the sections that are still open, the innermost first. -/
def openPlaces (painter : Painter) : List Nat := painter.opened.filterMap id

/-- The invariant of a painter whose strokes so far were made in order up to `position`. Open sections
end, for now, where they were opened or last closed. -/
structure Nested (text : List Char) (painter : Painter) (position : Nat) : Prop where
  descending : painter.openPlaces.Pairwise (· > ·)
  present : ∀ place ∈ painter.openPlaces, place < painter.sections.length
  placed : ∀ (place : Nat) (sec : Section), painter.sections[place]? = some sec →
    Placed text painter.origin position sec
  nonempty : ∀ (place : Nat) (sec : Section), painter.sections[place]? = some sec →
    place ∉ painter.openPlaces → 0 < sec.length
  sorted : ∀ (i j : Nat) (first second : Section), i < j → painter.sections[i]? = some first →
    painter.sections[j]? = some second → first.offset ≤ second.offset
  settled : ∀ (i j : Nat) (first second : Section), i < j → painter.sections[i]? = some first →
    painter.sections[j]? = some second → i ∉ painter.openPlaces →
      first.stop ≤ second.offset ∨ j ∉ painter.openPlaces ∧ second.stop ≤ first.stop
  continued : ∀ place, painter.lastClosed = some place →
    place < painter.sections.length ∧ (∀ other ∈ painter.openPlaces, other < place) ∧
      ∀ (i : Nat) (first sec : Section), i < place → painter.sections[i]? = some first →
        painter.sections[place]? = some sec → i ∉ painter.openPlaces → first.stop ≤ sec.offset

variable {text : List Char} {painter : Painter} {position : Nat}

theorem nested_empty (text : List Char) (origin : Nat) :
    Nested text { origin := origin } 0 := by
  constructor <;> simp [openPlaces]

namespace Nested

theorem of_le (nested : painter.Nested text position) {later : Nat} (ahead : position ≤ later) :
    painter.Nested text later :=
  { nested with
    placed := fun place sec found =>
      have inside := nested.placed place sec found
      ⟨inside.starts, by have := inside.ends; omega, inside.opens, inside.closes⟩ }

/-- The invariant only reads where the open sections are, not where styles without a section lie. -/
theorem of_openPlaces_eq (nested : painter.Nested text position) {opened : List (Option Nat)}
    (same : opened.filterMap id = painter.openPlaces) :
    ({ painter with opened := opened } : Painter).Nested text position := by
  have equal : ({ painter with opened := opened } : Painter).openPlaces = painter.openPlaces := same
  constructor
  · rw [equal]; exact nested.descending
  · rw [equal]; exact nested.present
  · exact nested.placed
  · rw [equal]; exact nested.nonempty
  · exact nested.sorted
  · rw [equal]; exact nested.settled
  · rw [equal]; exact nested.continued

/-- The section closed last is continued: nothing that is still open, or was painted after it, is in the
way. -/
theorem reopen (nested : painter.Nested text position) {place : Nat}
    (candidate : painter.lastClosed = some place) :
    ({ painter with opened := some place :: painter.opened, lastClosed := none } : Painter).Nested
      text position := by
  obtain ⟨inside, behind, clear⟩ := nested.continued place candidate
  constructor
  · exact List.pairwise_cons.mpr ⟨behind, nested.descending⟩
  · exact List.forall_mem_cons.mpr ⟨inside, nested.present⟩
  · exact nested.placed
  · intro other sec found closed
    exact nested.nonempty other sec found fun member => closed (List.mem_cons_of_mem _ member)
  · exact nested.sorted
  · intro i j first second before foundFirst foundSecond closed
    have closedBefore : i ∉ painter.openPlaces :=
      fun member => closed (List.mem_cons_of_mem _ member)
    -- Only pairs with the continued section change, and nothing closed reaches beyond its start.
    by_cases same : j = place
    · subst same
      exact .inl (clear i first second before foundFirst foundSecond closedBefore)
    · rcases nested.settled i j first second before foundFirst foundSecond closedBefore with
        apart | ⟨closedLater, within⟩
      · exact .inl apart
      · refine .inr ⟨fun member => ?_, within⟩
        rcases List.mem_cons.mp member with equal | outer
        · exact same equal
        · exact closedLater outer
  · nofun

/-- A new section starts behind every section so far. -/
theorem paintNew (nested : painter.Nested text position)
    (boundary : Text.IsBoundary text position) (style : Style) :
    ({ painter with
        sections := painter.sections ++ [⟨painter.origin + position, 0, style⟩]
        opened := some painter.sections.length :: painter.opened
        lastClosed := none } : Painter).Nested text position := by
  have known : ∀ (place : Nat) (sec : Section),
      (painter.sections ++ [⟨painter.origin + position, 0, style⟩])[place]? = some sec →
        painter.sections[place]? = some sec ∨
          place = painter.sections.length ∧ sec = ⟨painter.origin + position, 0, style⟩ := by
    intro place sec found
    grind
  constructor
  · exact List.pairwise_cons.mpr ⟨nested.present, nested.descending⟩
  · intro place member
    rw [List.length_append]
    rcases List.mem_cons.mp member with rfl | outer
    · exact Nat.lt_succ_self _
    · exact Nat.lt_succ_of_lt (nested.present place outer)
  · intro place sec found
    rcases known place sec found with earlier | ⟨_, rfl⟩
    · exact nested.placed place sec earlier
    · exact ⟨Nat.le_add_right _ _, Nat.le_refl _, by simpa using boundary,
        by simpa [Section.stop] using boundary⟩
  · intro place sec found closed
    rcases known place sec found with earlier | ⟨rfl, _⟩
    · exact nested.nonempty place sec earlier fun member => closed (List.mem_cons_of_mem _ member)
    · exact (closed List.mem_cons_self).elim
  · intro i j first second before foundFirst foundSecond
    rcases known i first foundFirst with earlier | ⟨rfl, _⟩
    · rcases known j second foundSecond with later | ⟨_, rfl⟩
      · exact nested.sorted i j first second before earlier later
      · have inside := (nested.placed i first earlier).ends
        exact Nat.le_trans (Nat.le_add_right _ _) inside
    · have := (List.getElem?_eq_some_iff.mp foundSecond).1
      rw [List.length_append, List.length_singleton] at this
      omega
  · intro i j first second before foundFirst foundSecond closed
    have closedBefore : i ∉ painter.openPlaces :=
      fun member => closed (List.mem_cons_of_mem _ member)
    rcases known i first foundFirst with earlier | ⟨rfl, _⟩
    · rcases known j second foundSecond with later | ⟨_, rfl⟩
      · refine (nested.settled i j first second before earlier later closedBefore).imp_right
          fun ⟨closedLater, within⟩ => ⟨fun member => ?_, within⟩
        rcases List.mem_cons.mp member with rfl | outer
        · exact Nat.lt_irrefl _ (List.getElem?_eq_some_iff.mp later).1
        · exact closedLater outer
      · exact .inl (nested.placed i first earlier).ends
    · exact (closed List.mem_cons_self).elim
  · nofun

/-! ## Closing the innermost section -/

section Innermost

variable {place : Nat} {rest : List (Option Nat)} {sec : Section}

theorem openPlaces_of_opened (innermost : painter.opened = some place :: rest) :
    painter.openPlaces = place :: rest.filterMap id := by
  rw [openPlaces, innermost]
  rfl

theorem mem_openPlaces_iff (innermost : painter.opened = some place :: rest) {other : Nat} :
    other ∈ painter.openPlaces ↔ other = place ∨ other ∈ rest.filterMap id := by
  rw [openPlaces_of_opened innermost, List.mem_cons]

variable (nested : painter.Nested text position) (innermost : painter.opened = some place :: rest)
include nested innermost

theorem lt_innermost {other : Nat} (outer : other ∈ rest.filterMap id) : other < place :=
  (List.pairwise_cons.mp (openPlaces_of_opened innermost ▸ nested.descending)).1 other outer

theorem descending_rest : (rest.filterMap id).Pairwise (· > ·) :=
  (List.pairwise_cons.mp (openPlaces_of_opened innermost ▸ nested.descending)).2

/-- Sections other than the innermost are as settled when it is closed as they were before. -/
theorem settled_rest {i j : Nat} {first second : Section} (before : i < j)
    (foundFirst : painter.sections[i]? = some first)
    (foundSecond : painter.sections[j]? = some second) (different : i ≠ place)
    (closed : i ∉ rest.filterMap id) :
    first.stop ≤ second.offset ∨ j ∉ rest.filterMap id ∧ second.stop ≤ first.stop := by
  have settled := nested.settled i j first second before foundFirst foundSecond
  simp only [mem_openPlaces_iff innermost, not_or] at settled
  exact (settled ⟨different, closed⟩).imp_right (And.imp_left And.right)

/-- A section closed before the innermost one was opened ends where that one starts. -/
theorem stop_le_innermost {i : Nat} {first : Section} (before : i < place)
    (foundFirst : painter.sections[i]? = some first) (found : painter.sections[place]? = some sec)
    (closed : i ∉ rest.filterMap id) : first.stop ≤ sec.offset := by
  have stillOpen := (mem_openPlaces_iff innermost).mpr (.inl rfl)
  have closedBefore : i ∉ painter.openPlaces := by
    rw [mem_openPlaces_iff innermost]
    exact not_or.mpr ⟨Nat.ne_of_lt before, closed⟩
  rcases nested.settled i place first sec before foundFirst found closedBefore with
    apart | ⟨closedLater, _⟩
  · exact apart
  · exact absurd stillOpen closedLater

/-- An innermost section that started here is the last one: a later one would be closed, and so would
reach further. -/
theorem length_of_empty (found : painter.sections[place]? = some sec)
    (empty : painter.origin + position - sec.offset = 0) :
    painter.sections.length = place + 1 := by
  refine Nat.le_antisymm (Nat.le_of_not_lt fun more => ?_) (List.getElem?_eq_some_iff.mp found).1
  obtain ⟨later, foundLater⟩ : ∃ later, painter.sections[place + 1]? = some later :=
    ⟨_, List.getElem?_eq_getElem more⟩
  have closed : place + 1 ∉ painter.openPlaces := by
    rw [mem_openPlaces_iff innermost]
    rintro (equal | outer)
    · omega
    · have := nested.lt_innermost innermost outer
      omega
  have starts := nested.sorted place (place + 1) sec later (Nat.lt_succ_self _) found foundLater
  have ends := (nested.placed _ later foundLater).ends
  have filled := nested.nonempty _ later foundLater closed
  rw [Section.stop] at ends
  omega

/-- Closing the innermost section where it started removes it: it is the last one, and none may be
continued. -/
theorem closeEmpty (found : painter.sections[place]? = some sec)
    (empty : painter.origin + position - sec.offset = 0) :
    ({ painter with sections := painter.sections.eraseIdx place, opened := rest } :
      Painter).Nested text position := by
  have inside := (List.getElem?_eq_some_iff.mp found).1
  have last := nested.length_of_empty innermost found empty
  have known : ∀ (other : Nat) (first : Section),
      (painter.sections.eraseIdx place)[other]? = some first →
        other < place ∧ painter.sections[other]? = some first := by
    intro other first foundFirst
    grind
  constructor
  · exact nested.descending_rest innermost
  · intro other member
    show other < (painter.sections.eraseIdx place).length
    rw [List.length_eraseIdx_of_lt inside, last]
    exact nested.lt_innermost innermost member
  · intro other first foundFirst
    exact nested.placed other first (known other first foundFirst).2
  · intro other first foundFirst closed
    obtain ⟨before, earlier⟩ := known other first foundFirst
    refine nested.nonempty other first earlier ?_
    rw [mem_openPlaces_iff innermost]
    exact not_or.mpr ⟨Nat.ne_of_lt before, closed⟩
  · intro i j first second before foundFirst foundSecond
    exact nested.sorted i j first second before (known i first foundFirst).2
      (known j second foundSecond).2
  · intro i j first second before foundFirst foundSecond closed
    obtain ⟨inFront, earlier⟩ := known i first foundFirst
    exact nested.settled_rest innermost before earlier (known j second foundSecond).2
      (Nat.ne_of_lt inFront) closed
  · intro candidate isLast
    obtain ⟨within, ahead, _⟩ := nested.continued candidate isLast
    have := ahead place ((mem_openPlaces_iff innermost).mpr (.inl rfl))
    omega

/-- Closing the innermost section makes it the one that may be continued. -/
theorem close (boundary : Text.IsBoundary text position)
    (found : painter.sections[place]? = some sec)
    (filled : painter.origin + position - sec.offset ≠ 0) :
    ({ painter with
        sections := painter.sections.set place
          { sec with length := painter.origin + position - sec.offset }
        opened := rest
        lastClosed := some place } : Painter).Nested text position := by
  have inside := (List.getElem?_eq_some_iff.mp found).1
  have known : ∀ (other : Nat) (first : Section),
      (painter.sections.set place
        { sec with length := painter.origin + position - sec.offset })[other]? = some first →
        (other ≠ place ∧ painter.sections[other]? = some first) ∨
          other = place ∧ first.offset = sec.offset ∧
            first.stop = painter.origin + position := by
    intro other first foundFirst
    by_cases same : other = place
    · subst same
      rw [List.getElem?_set_self inside] at foundFirst
      cases foundFirst
      refine .inr ⟨rfl, rfl, ?_⟩
      show sec.offset + (painter.origin + position - sec.offset) = _
      omega
    · rw [List.getElem?_set_ne (Ne.symm same)] at foundFirst
      exact .inl ⟨same, foundFirst⟩
  constructor
  · exact nested.descending_rest innermost
  · intro other member
    show other < (painter.sections.set _ _).length
    rw [List.length_set]
    exact Nat.lt_trans (nested.lt_innermost innermost member) inside
  · intro other first foundFirst
    rcases known other first foundFirst with ⟨_, earlier⟩ | ⟨_, starts, ends⟩
    · exact nested.placed other first earlier
    · have placed := nested.placed place sec found
      refine ⟨starts ▸ placed.starts, Nat.le_of_eq ends, starts ▸ placed.opens, ?_⟩
      show Text.IsBoundary text (first.stop - painter.origin)
      rw [ends, Nat.add_sub_cancel_left]
      exact boundary
  · intro other first foundFirst closed
    rcases known other first foundFirst with ⟨different, earlier⟩ | ⟨_, starts, ends⟩
    · refine nested.nonempty other first earlier ?_
      rw [mem_openPlaces_iff innermost]
      exact not_or.mpr ⟨different, closed⟩
    · rw [Section.stop] at ends
      omega
  · intro i j first second before foundFirst foundSecond
    rcases known i first foundFirst with ⟨_, earlier⟩ | ⟨rfl, starts, _⟩
    · rcases known j second foundSecond with ⟨_, later⟩ | ⟨rfl, startsLater, _⟩
      · exact nested.sorted i j first second before earlier later
      · rw [startsLater]
        exact nested.sorted i j first sec before earlier found
    · rcases known j second foundSecond with ⟨_, later⟩ | ⟨rfl, _⟩
      · rw [starts]
        exact nested.sorted i j sec second before found later
      · omega
  · intro i j first second before foundFirst foundSecond closed
    rcases known i first foundFirst with ⟨different, earlier⟩ | ⟨rfl, _, ends⟩
    · rcases known j second foundSecond with ⟨_, later⟩ | ⟨rfl, starts, _⟩
      · exact nested.settled_rest innermost before earlier later different closed
      · rw [starts]
        exact .inl (nested.stop_le_innermost innermost before earlier found closed)
    · rcases known j second foundSecond with ⟨_, later⟩ | ⟨rfl, _⟩
      · refine .inr ⟨fun outer => ?_, ends ▸ (nested.placed j second later).ends⟩
        exact Nat.lt_asymm before (nested.lt_innermost innermost outer)
      · omega
  · -- The new candidate for being continued is the section just closed.
    rintro _ ⟨⟩
    refine ⟨?_, fun other outer => nested.lt_innermost innermost outer, ?_⟩
    · show place < (painter.sections.set _ _).length
      rw [List.length_set]
      exact inside
    · intro i first last before foundFirst foundLast closed
      rcases known i first foundFirst with ⟨_, earlier⟩ | ⟨rfl, _⟩
      · rcases known place last foundLast with ⟨same, _⟩ | ⟨_, starts, _⟩
        · exact absurd rfl same
        · rw [starts]
          exact nested.stop_le_innermost innermost before earlier found closed
      · omega

end Innermost

end Nested

/-! ## Strokes -/

theorem continuable?_eq_some {style : Style} {offset place : Nat}
    (candidate : painter.continuable? style offset = some place) :
    painter.lastClosed = some place :=
  (Option.filter_eq_some_iff.mp candidate).1

namespace Nested

/-- Opening a style between characters keeps the invariant, whether it continues a section or begins one. -/
theorem push (nested : painter.Nested text position) (boundary : Text.IsBoundary text position)
    (style : Option Style) : (painter.push style position).Nested text position := by
  cases style with
  | none => exact nested.of_openPlaces_eq rfl
  | some style =>
      simp only [Painter.push]
      split
      · rename_i place candidate
        exact nested.reopen (continuable?_eq_some candidate)
      · exact nested.paintNew boundary style

/-- Closing the style opened last does, whether its section is finished or removed. -/
theorem pop (nested : painter.Nested text position) (boundary : Text.IsBoundary text position) :
    (painter.pop position).Nested text position := by
  rw [Painter.pop]
  split
  · exact nested
  · rename_i rest innermost
    exact nested.of_openPlaces_eq (by rw [openPlaces, innermost]; rfl)
  · rename_i place rest innermost
    have inside := nested.present place (openPlaces_of_opened innermost ▸ List.mem_cons_self)
    rw [List.getElem?_eq_getElem inside]
    have found := List.getElem?_eq_getElem inside
    dsimp only
    split
    · exact nested.closeEmpty innermost found ‹_›
    · exact nested.close innermost boundary found ‹_›

theorem apply {stroke : Stroke} (nested : painter.Nested text stroke.position)
    (boundary : Text.IsBoundary text stroke.position) :
    (stroke.apply painter).Nested text stroke.position := by
  cases stroke with
  | push style position => exact nested.push boundary style
  | pop position => exact nested.pop boundary

/-- Strokes made in order keep the invariant. -/
theorem draw {strokes : List Stroke} {stop : Nat} (nested : painter.Nested text position)
    (ordered : InOrder text position strokes stop) : (painter.draw strokes).Nested text stop := by
  induction ordered generalizing painter with
  | nil forward => exact nested.of_le forward
  | cons forward boundary _ ih => exact ih ((nested.of_le forward).apply boundary)

end Nested

/-- Closing a style leaves the styles around it open. -/
theorem opened_pop (painter : Painter) (position : Nat) :
    (painter.pop position).opened = painter.opened.tail := by
  unfold pop
  split
  · simp [*]
  · simp [*]
  · split
    · simp [*]
    · dsimp only
      split <;> simp [*]

/-- Closing as many styles as are open. -/
theorem Nested.foldl_pop (nested : painter.Nested text position)
    (boundary : Text.IsBoundary text position) {opened : List (Option Nat)}
    (same : painter.opened = opened) :
    (opened.foldl (fun painter _ => painter.pop position) painter).Nested text position ∧
      (opened.foldl (fun painter _ => painter.pop position) painter).opened = [] := by
  induction opened generalizing painter with
  | nil => exact ⟨nested, same⟩
  | cons _ rest ih => exact ih (nested.pop boundary) (by rw [opened_pop, same]; rfl)

/-- Opening a style does not move the line. -/
theorem origin_push (painter : Painter) (style : Option Style) (position : Nat) :
    (painter.push style position).origin = painter.origin := by
  unfold push
  split
  · rfl
  · dsimp only
    split <;> rfl

/-- Closing a style does not either. -/
theorem origin_pop (painter : Painter) (position : Nat) :
    (painter.pop position).origin = painter.origin := by
  unfold pop
  split
  · rfl
  · rfl
  · split
    · rfl
    · dsimp only
      split <;> rfl

theorem origin_draw (painter : Painter) (strokes : List Stroke) :
    (painter.draw strokes).origin = painter.origin := by
  induction strokes generalizing painter with
  | nil => rfl
  | cons stroke rest ih =>
      rw [draw_cons, ih]
      cases stroke with
      | push style position => exact origin_push painter style position
      | pop position => exact origin_pop painter position

theorem origin_popAll (painter : Painter) (position : Nat) :
    (painter.popAll position).origin = painter.origin := by
  unfold popAll
  generalize painter.opened = opened
  induction opened generalizing painter with
  | nil => rfl
  | cons _ rest ih => rw [List.foldl_cons, ih, origin_pop]

theorem Nested.popAll (nested : painter.Nested text position)
    (boundary : Text.IsBoundary text position) :
    (painter.popAll position).Nested text position ∧ (painter.popAll position).opened = [] :=
  nested.foldl_pop boundary rfl

end Painter

/-- **Nested sections.** Sections painted by strokes in order lie on the line, cover whole characters, are
not empty, start one after another, and are nested or disjoint. -/
theorem paintedSections_nested {text : List Char} {strokes : List Stroke}
    (ordered : InOrder text 0 strokes (Text.byteLength text)) (origin : Nat) :
    (∀ sec ∈ paintedSections origin strokes (Text.byteLength text),
      Placed text origin (Text.byteLength text) sec ∧ 0 < sec.length) ∧
    (paintedSections origin strokes (Text.byteLength text)).Pairwise fun first second =>
      first.offset ≤ second.offset ∧
        (first.stop ≤ second.offset ∨ second.stop ≤ first.stop) := by
  obtain ⟨nested, finished⟩ := ((Painter.nested_empty text origin).draw ordered).popAll
    (Text.isBoundary_byteLength text)
  have closed : ∀ place, place ∉ ((({ origin := origin } : Painter).draw strokes).popAll
      (Text.byteLength text)).openPlaces := by
    intro place
    rw [Painter.openPlaces, finished]
    exact List.not_mem_nil
  have start : ((({ origin := origin } : Painter).draw strokes).popAll
      (Text.byteLength text)).origin = origin := by
    rw [Painter.origin_popAll, Painter.origin_draw]
  constructor
  · intro sec member
    obtain ⟨place, found⟩ := List.mem_iff_getElem?.mp member
    have placed := nested.placed place sec found
    rw [start] at placed
    exact ⟨placed, nested.nonempty place sec found (closed place)⟩
  · refine List.pairwise_iff_getElem.mpr fun i j within inside before => ?_
    have found := List.getElem?_eq_getElem within
    have foundLater := List.getElem?_eq_getElem inside
    exact ⟨nested.sorted i j _ _ before found foundLater,
      (nested.settled i j _ _ before found foundLater (closed i)).imp id And.right⟩

end Scan

end Highlight
