import Highlight.Proofs.Line.Styles
import Highlight.Proofs.Scan.Nesting
import Mathlib.Data.List.Basic
import Mathlib.Data.List.Sort

/-! # What painted sections show

Sections that are painted by strokes in order show at each byte the styles that are open there, the outermost
first (`Highlight.Scan.stylesAt_paintedSections`). How runs are joined into sections does not matter: a
section that is still open is looked at as if it reached up to where the painter is, and then a stroke changes
nothing of what is shown before it.
-/

namespace Highlight

open Section (stylesAt)

/-- The styles at a byte are those of the places whose sections contain it, in order. -/
theorem Section.stylesAt_eq_filterMap (sections : List Section) (offset : Nat) :
    stylesAt sections offset =
      ((List.range sections.length).filter fun place =>
        sections[place]?.any (·.contains offset)).filterMap fun place =>
          sections[place]?.map Section.style := by
  induction sections with
  | nil => rfl
  | cons sec rest ih =>
      have later : ((List.range rest.length).map Nat.succ).filter
            (fun place => (sec :: rest)[place]?.any (·.contains offset)) =
          ((List.range rest.length).filter fun place =>
            rest[place]?.any (·.contains offset)).map Nat.succ := by
        rw [List.filter_map]
        rfl
      have first : (sec :: rest)[0]?.any (·.contains offset) = sec.contains offset := rfl
      rw [stylesAt] at ih
      rw [stylesAt, List.length_cons, List.range_succ_eq_map, List.filter_cons, List.filter_cons,
        later, first]
      split
      · rw [List.map_cons, ih, List.filterMap_cons, List.filterMap_map]
        rfl
      · rw [ih, List.filterMap_map]
        rfl

/-- Where the sections that contain a byte are those at some places, given from the last to the first, the
styles there are theirs. -/
theorem Section.stylesAt_mapIdx {sections : List Section} {places : List Nat} {offset : Nat}
    {change : Nat → Section → Section} (descending : places.Pairwise (· > ·))
    (present : ∀ place ∈ places, place < sections.length)
    (styled : ∀ place sec, (change place sec).style = sec.style)
    (covers : ∀ place sec, sections[place]? = some sec →
      ((change place sec).contains offset = true ↔ place ∈ places)) :
    stylesAt (sections.mapIdx change) offset =
      (places.filterMap fun place => sections[place]?.map style).reverse := by
  have chosen : ((List.range sections.length).filter fun place =>
      (sections.mapIdx change)[place]?.any (·.contains offset)) = places.reverse := by
    apply List.Pairwise.eq_of_mem_iff (r := (· < ·))
    · exact List.pairwise_lt_range.filter _
    · exact List.pairwise_reverse.mpr descending
    · intro place
      rw [List.mem_filter, List.mem_range, List.mem_reverse, List.getElem?_mapIdx]
      by_cases inside : place < sections.length
      · have found := List.getElem?_eq_getElem inside
        rw [found, and_iff_right inside]
        exact covers place _ found
      · exact iff_of_false (fun both => inside both.1) fun member => inside (present place member)
  rw [stylesAt_eq_filterMap, List.length_mapIdx, chosen, List.filterMap_reverse]
  refine congrArg List.reverse (List.filterMap_congr fun place _ => ?_)
  rw [List.getElem?_mapIdx, Option.map_map]
  exact congrArg (Option.map · sections[place]?) (funext (styled place))

/-- Sections that are changed in two ways show the same where both changes keep the style and agree on what
contains the byte. -/
theorem Section.stylesAt_mapIdx_congr {sections : List Section} {offset : Nat}
    {change other : Nat → Section → Section}
    (styled : ∀ place sec, (change place sec).style = (other place sec).style)
    (contains : ∀ place sec, sections[place]? = some sec →
      (change place sec).contains offset = (other place sec).contains offset) :
    stylesAt (sections.mapIdx change) offset = stylesAt (sections.mapIdx other) offset := by
  have chosen : ∀ place : Nat, (sections.mapIdx change)[place]?.any (·.contains offset) =
      (sections.mapIdx other)[place]?.any (·.contains offset) := by
    intro place
    rw [List.getElem?_mapIdx, List.getElem?_mapIdx]
    cases found : sections[place]? with
    | none => rfl
    | some sec => exact contains place sec found
  have shown : ∀ place : Nat, (sections.mapIdx change)[place]?.map style =
      (sections.mapIdx other)[place]?.map style := by
    intro place
    rw [List.getElem?_mapIdx, List.getElem?_mapIdx, Option.map_map, Option.map_map]
    exact congrArg (Option.map · sections[place]?) (funext (styled place))
  rw [stylesAt_eq_filterMap, stylesAt_eq_filterMap, List.length_mapIdx, List.length_mapIdx]
  simp only [chosen, shown]

namespace Scan

/-- The styles that are open after a stroke, the innermost first. -/
def Stroke.stacked (opened : List (Option Style)) : Stroke → List (Option Style)
  | push style _ => style :: opened
  | pop _ => opened.tail

/-- The styles that are open after several strokes, the innermost first. -/
def openStyles (strokes : List Stroke) : List (Option Style) := strokes.foldl Stroke.stacked []

theorem openStyles_append_singleton (strokes : List Stroke) (stroke : Stroke) :
    openStyles (strokes ++ [stroke]) = stroke.stacked (openStyles strokes) := by
  rw [openStyles, List.foldl_append]
  rfl

/-- The styles that the strokes up to a byte have left open there, the outermost first. -/
def shownAt (strokes : List Stroke) (position : Nat) : List Style :=
  ((openStyles (strokes.filter (·.position ≤ position))).filterMap id).reverse

namespace Painter

variable {text : List Char} {painter : Painter} {position : Nat}

/-- The styles that are open, the innermost first. -/
def openStyles (painter : Painter) : List (Option Style) :=
  painter.opened.map fun place => place.bind fun place => painter.sections[place]?.map Section.style

/-- The sections as they would be if the open ones ended at `position`. -/
def extended (painter : Painter) (position : Nat) : List Section :=
  painter.sections.mapIdx fun place sec =>
    if place ∈ painter.openPlaces then { sec with length := painter.origin + position - sec.offset }
    else sec

/-- Sections that are still open are taken to reach to the place of the painter, the others as they are. -/
theorem getElem?_extended (painter : Painter) (position place : Nat) :
    (painter.extended position)[place]? =
      painter.sections[place]?.map fun sec =>
        if place ∈ painter.openPlaces then
          { sec with length := painter.origin + position - sec.offset }
        else sec := by
  rw [extended, List.getElem?_mapIdx]

theorem mem_openPlaces_of_mem_opened {place : Nat} (member : some place ∈ painter.opened) :
    place ∈ painter.openPlaces :=
  List.mem_filterMap.mpr ⟨some place, member, rfl⟩

theorem filterMap_openStyles (painter : Painter) :
    painter.openStyles.filterMap id =
      painter.openPlaces.filterMap fun place => painter.sections[place]?.map Section.style := by
  rw [openStyles, openPlaces, List.filterMap_map, List.filterMap_filterMap]
  rfl

/-- What is open is shown where the painter has passed without a stroke. -/
theorem Nested.stylesAt_extended (nested : painter.Nested text position) {later offset : Nat}
    (passed : position ≤ offset) (before : offset < later) :
    stylesAt (painter.extended later) (painter.origin + offset) =
      (painter.openStyles.filterMap id).reverse := by
  rw [extended, filterMap_openStyles]
  refine Section.stylesAt_mapIdx nested.descending nested.present ?_ ?_
  · intro place sec
    split <;> rfl
  · intro place sec found
    have placed := nested.placed place sec found
    have starts := placed.starts
    have ends := placed.ends
    rw [Section.stop] at ends
    rw [Section.contains_iff]
    split
    · rename_i stillOpen
      refine iff_of_true ?_ stillOpen
      dsimp only [Section.stop]
      omega
    · rename_i closed
      refine iff_of_false (fun inside => ?_) closed
      rw [Section.stop] at inside
      omega

/-- Moving on changes nothing of what is shown before. -/
theorem Nested.stylesAt_extended_of_lt (nested : painter.Nested text position) {later offset : Nat}
    (ahead : position ≤ later) (before : offset < position) :
    stylesAt (painter.extended later) (painter.origin + offset) =
      stylesAt (painter.extended position) (painter.origin + offset) := by
  refine Section.stylesAt_mapIdx_congr (fun place sec => ?_) fun place sec found => ?_
  · split <;> rfl
  · have ends := (nested.placed place sec found).ends
    rw [Section.stop] at ends
    split
    · rw [Bool.eq_iff_iff, Section.contains_iff, Section.contains_iff]
      dsimp only [Section.stop]
      omega
    · rfl

/-- The styles of open sections depend on no other sections. -/
theorem map_styles_congr {opened : List (Option Nat)} {first second : List Section}
    (same : ∀ place, some place ∈ opened →
      first[place]?.map Section.style = second[place]?.map Section.style) :
    (opened.map fun place => place.bind fun place => first[place]?.map Section.style) =
      opened.map fun place => place.bind fun place => second[place]?.map Section.style := by
  refine List.map_congr_left fun place member => ?_
  cases place with
  | none => rfl
  | some place => exact same place member

/-- A section is continued by its own style, and where it ends. -/
theorem of_continuable? {style : Style} {offset place : Nat}
    (candidate : painter.continuable? style offset = some place) :
    ∃ sec, painter.sections[place]? = some sec ∧ sec.style = style ∧ sec.stop = offset := by
  obtain ⟨_, reaches⟩ := Option.filter_eq_some_iff.mp candidate
  cases found : painter.sections[place]? with
  | none =>
      rw [found] at reaches
      cases reaches
  | some sec =>
      rw [found, Option.any_some, Bool.and_eq_true, decide_eq_true_eq, decide_eq_true_eq] at reaches
      exact ⟨sec, rfl, reaches.1, reaches.2⟩

theorem stylesAt_singleton_of_empty {sec : Section} (empty : sec.length = 0) (offset : Nat) :
    stylesAt [sec] offset = [] := by
  refine Section.stylesAt_cons_of_not_contains ?_
  rw [Section.stop]
  omega

/-- Opening a style changes nothing of what is shown. -/
theorem stylesAt_push (painter : Painter) (position : Nat) (style : Option Style) (offset : Nat) :
    stylesAt ((painter.push style position).extended position) offset =
      stylesAt (painter.extended position) offset := by
  cases style with
  | none => rfl
  | some style =>
      simp only [Painter.push]
      split
      · -- A section that is continued ends where the painter is.
        rename_i place candidate
        obtain ⟨sec, found, _, ends⟩ := of_continuable? candidate
        refine Section.stylesAt_mapIdx_congr (fun _ _ => by split <;> split <;> rfl)
          fun other first foundOther => ?_
        by_cases same : other = place
        · subst same
          obtain rfl : sec = first := Option.some_inj.mp (found.symm.trans foundOther)
          have stays : ({ sec with length := painter.origin + position - sec.offset } : Section) =
              sec := by
            rw [← ends, Section.stop, Nat.add_sub_cancel_left]
          simp only [stays, ite_self]
        · have iff : other ∈ place :: painter.openPlaces ↔ other ∈ painter.openPlaces := by
            rw [List.mem_cons, or_iff_right same]
          exact congrArg (Section.contains · offset) (if_congr iff rfl rfl)
      · -- A new one is empty for now.
        rw [extended, List.mapIdx_concat, Section.stylesAt_append]
        rw [stylesAt_singleton_of_empty, List.append_nil]
        · refine Section.stylesAt_mapIdx_congr (fun _ _ => by split <;> split <;> rfl)
            fun place sec found => ?_
          have before := (List.getElem?_eq_some_iff.mp found).1
          have iff : place ∈ painter.sections.length :: painter.openPlaces ↔
              place ∈ painter.openPlaces := by
            rw [List.mem_cons, or_iff_right (Nat.ne_of_lt before)]
          exact congrArg (Section.contains · offset) (if_congr iff rfl rfl)
        · split
          · exact Nat.sub_self _
          · rfl

section Stroke

variable (nested : painter.Nested text position)
include nested

/-- Opening a style puts it on top, whether or not a section is continued for it. -/
theorem Nested.openStyles_push (style : Option Style) :
    (painter.push style position).openStyles = style :: painter.openStyles := by
  cases style with
  | none => rfl
  | some style =>
      simp only [Painter.push]
      split
      · rename_i place candidate
        obtain ⟨sec, found, styled, _⟩ := of_continuable? candidate
        simp only [openStyles, List.map_cons, Option.bind_some, found, Option.map_some, styled]
      · simp only [openStyles, List.map_cons, Option.bind_some, List.getElem?_concat_length,
          Option.map_some]
        refine congrArg _ (map_styles_congr fun place member => ?_)
        rw [List.getElem?_append_left (nested.present place (mem_openPlaces_of_mem_opened member))]

/-- Closing a style takes off the one on top. -/
theorem Nested.openStyles_pop : (painter.pop position).openStyles = painter.openStyles.tail := by
  rw [Painter.pop]
  split
  · rename_i closed
    simp only [openStyles, closed, List.map_nil, List.tail_nil]
  · rename_i rest innermost
    simp only [openStyles, innermost, List.map_cons, List.tail_cons]
  · rename_i place rest innermost
    have inside := nested.present place
      (Nested.openPlaces_of_opened innermost ▸ List.mem_cons_self)
    have outer : ∀ other, some other ∈ rest → other < place := fun other member =>
      nested.lt_innermost innermost (List.mem_filterMap.mpr ⟨some other, member, rfl⟩)
    rw [List.getElem?_eq_getElem inside]
    simp only [openStyles, innermost, List.map_cons, List.tail_cons]
    split
    · refine map_styles_congr fun other member => ?_
      rw [List.getElem?_eraseIdx_of_lt (outer other member)]
    · refine map_styles_congr fun other member => ?_
      rw [List.getElem?_set_ne (Nat.ne_of_gt (outer other member))]

section Innermost

variable {place : Nat} {rest : List (Option Nat)} {sec : Section}
  (innermost : painter.opened = some place :: rest) (found : painter.sections[place]? = some sec)
include innermost

omit nested in
theorem mem_rest_iff {other : Nat} (different : other ≠ place) :
    other ∈ rest.filterMap id ↔ other ∈ painter.openPlaces := by
  rw [Nested.mem_openPlaces_iff innermost, or_iff_right different]

include found

/-- An empty section is removed unseen. -/
theorem Nested.stylesAt_eraseIdx (empty : painter.origin + position - sec.offset = 0) (offset : Nat) :
    stylesAt ({ painter with
        sections := painter.sections.eraseIdx place, opened := rest }.extended position) offset =
      stylesAt (painter.extended position) offset := by
  -- It is the last one.
  have length := nested.length_of_empty innermost found empty
  obtain ⟨front, last, sections⟩ := (List.eq_nil_or_concat' painter.sections).resolve_left
    (List.ne_nil_of_length_pos (by omega))
  rw [sections, List.length_append, List.length_singleton] at length
  obtain rfl : front.length = place := Nat.add_right_cancel length
  rw [sections, List.getElem?_concat_length] at found
  cases found
  have listed : front.length ∈ painter.openPlaces :=
    (Nested.mem_openPlaces_iff innermost).mpr (.inl rfl)
  rw [extended, extended, sections, List.mapIdx_concat, Section.stylesAt_append, if_pos listed,
    List.eraseIdx_append_of_length_le (Nat.le_refl _), Nat.sub_self, List.eraseIdx_zero,
    List.tail_cons, List.append_nil, stylesAt_singleton_of_empty, List.append_nil]
  · refine Section.stylesAt_mapIdx_congr (fun _ _ => by split <;> split <;> rfl)
      fun other sec there => ?_
    have before := (List.getElem?_eq_some_iff.mp there).1
    exact congrArg (Section.contains · offset)
      (if_congr (mem_rest_iff innermost (Nat.ne_of_lt before)) rfl rfl)
  · exact empty

/-- A section that ends where the painter is reaches as far as while it was open. -/
theorem Nested.extended_set :
    { painter with
      sections := painter.sections.set place
        { sec with length := painter.origin + position - sec.offset }
      opened := rest, lastClosed := some place }.extended position = painter.extended position := by
  have inside := nested.present place (Nested.openPlaces_of_opened innermost ▸ List.mem_cons_self)
  have listed : place ∈ painter.openPlaces := (Nested.mem_openPlaces_iff innermost).mpr (.inl rfl)
  have closed : place ∉ rest.filterMap id := fun member =>
    Nat.lt_irrefl place (nested.lt_innermost innermost member)
  refine List.ext_getElem? fun other => ?_
  rw [getElem?_extended, getElem?_extended]
  by_cases same : other = place
  · subst same
    rw [List.getElem?_set_self inside, found, Option.map_some, Option.map_some, if_pos listed]
    exact congrArg some (if_neg closed)
  · rw [List.getElem?_set_ne (Ne.symm same)]
    exact congrArg (Option.map · painter.sections[other]?)
      (funext fun sec => if_congr (mem_rest_iff innermost same) rfl rfl)

end Innermost

/-- Closing a style changes nothing of what is shown. -/
theorem Nested.stylesAt_pop (offset : Nat) :
    stylesAt ((painter.pop position).extended position) offset =
      stylesAt (painter.extended position) offset := by
  rw [Painter.pop]
  split
  · rfl
  · rename_i rest innermost
    have same : painter.openPlaces = rest.filterMap id := by
      rw [openPlaces, innermost]
      rfl
    rw [extended, extended, same]
    rfl
  · rename_i place rest innermost
    have inside := nested.present place
      (Nested.openPlaces_of_opened innermost ▸ List.mem_cons_self)
    have found := List.getElem?_eq_getElem inside
    rw [found]
    dsimp only
    split
    · rename_i empty
      exact nested.stylesAt_eraseIdx innermost found empty offset
    · exact congrArg (stylesAt · offset) (nested.extended_set innermost found)

end Stroke

/-- A painter that has made some strokes in order, and shows before `position` what they have left open. -/
structure Shows (text : List Char) (painter : Painter) (strokes : List Stroke) (position : Nat) :
    Prop where
  nested : painter.Nested text position
  opened : painter.openStyles = Scan.openStyles strokes
  early : ∀ stroke ∈ strokes, stroke.position ≤ position
  shown : ∀ offset < position, stylesAt (painter.extended position) (painter.origin + offset) =
    shownAt strokes offset

namespace Shows

variable {strokes : List Stroke}

/-- The bytes that are passed without strokes show the styles that are open there. -/
theorem of_le (shows : painter.Shows text strokes position) {later : Nat} (ahead : position ≤ later) :
    painter.Shows text strokes later := by
  refine ⟨shows.nested.of_le ahead, shows.opened,
    fun stroke member => Nat.le_trans (shows.early stroke member) ahead, fun offset before => ?_⟩
  by_cases passed : position ≤ offset
  · have all : strokes.filter (·.position ≤ offset) = strokes := by
      refine List.filter_eq_self.mpr fun stroke member => decide_eq_true ?_
      exact Nat.le_trans (shows.early stroke member) passed
    rw [shows.nested.stylesAt_extended passed before, shownAt, all, shows.opened]
  · have earlier := Nat.lt_of_not_le passed
    rw [shows.nested.stylesAt_extended_of_lt ahead earlier, shows.shown offset earlier]

/-- A stroke changes what is shown from its place on and nothing before it, whether a section is begun,
continued, finished or removed. -/
theorem apply {stroke : Stroke} (shows : painter.Shows text strokes stroke.position)
    (boundary : Text.IsBoundary text stroke.position) :
    (stroke.apply painter).Shows text (strokes ++ [stroke]) stroke.position := by
  have nested := shows.nested
  have earlier : ∀ offset < stroke.position,
      shownAt (strokes ++ [stroke]) offset = shownAt strokes offset := by
    intro offset before
    have late : [stroke].filter (·.position ≤ offset) = [] := by
      refine List.filter_eq_nil_iff.mpr fun other member reached => ?_
      rw [List.mem_singleton.mp member, decide_eq_true_eq] at reached
      omega
    rw [shownAt, List.filter_append, late, List.append_nil]
    rfl
  have early : ∀ other ∈ strokes ++ [stroke], other.position ≤ stroke.position := by
    intro other member
    rcases List.mem_append.mp member with before | last
    · exact shows.early other before
    · exact Nat.le_of_eq (congrArg _ (List.mem_singleton.mp last))
  cases stroke with
  | push style place =>
      refine ⟨nested.push boundary style, ?_, early, fun offset before => ?_⟩
      · rw [openStyles_append_singleton, ← shows.opened]
        exact nested.openStyles_push style
      · rw [earlier offset before, ← shows.shown offset before]
        exact (congrArg (fun origin => stylesAt _ (origin + offset))
          (painter.origin_push style place)).trans (painter.stylesAt_push place style _)
  | pop place =>
      refine ⟨nested.pop boundary, ?_, early, fun offset before => ?_⟩
      · rw [openStyles_append_singleton, ← shows.opened]
        exact nested.openStyles_pop
      · rw [earlier offset before, ← shows.shown offset before]
        exact (congrArg (fun origin => stylesAt _ (origin + offset))
          (painter.origin_pop place)).trans (nested.stylesAt_pop _)

/-- Strokes made in order. -/
theorem draw {more : List Stroke} {stop : Nat} (shows : painter.Shows text strokes position)
    (ordered : InOrder text position more stop) :
    (painter.draw more).Shows text (strokes ++ more) stop := by
  induction ordered generalizing painter strokes with
  | nil forward =>
      rw [List.append_nil]
      exact shows.of_le forward
  | @cons _ _ stroke rest forward boundary _ ih =>
      rw [List.append_cons]
      exact ih ((shows.of_le forward).apply boundary)

end Shows

theorem shows_empty (text : List Char) (origin : Nat) :
    ({ origin := origin } : Painter).Shows text [] 0 :=
  ⟨nested_empty text origin, rfl, fun _ member => absurd member List.not_mem_nil,
    fun _ before => absurd before (Nat.not_lt_zero _)⟩

/-- Closing all styles changes nothing of what is shown. -/
theorem Nested.stylesAt_popAll (nested : painter.Nested text position)
    (boundary : Text.IsBoundary text position) (offset : Nat) :
    stylesAt (painter.popAll position).sections offset =
      stylesAt (painter.extended position) offset := by
  have closes : ∀ {opened : List (Option Nat)} {painter : Painter}, painter.Nested text position →
      stylesAt ((opened.foldl (fun painter _ => painter.pop position) painter).extended position)
          offset = stylesAt (painter.extended position) offset := by
    intro opened
    induction opened with
    | nil => exact fun _ => rfl
    | cons place rest ih =>
        intro painter nested
        exact (ih (nested.pop boundary)).trans (nested.stylesAt_pop offset)
  have finished : (painter.popAll position).openPlaces = [] := by
    rw [openPlaces, (nested.popAll boundary).2]
    rfl
  have whole : (painter.popAll position).extended position = (painter.popAll position).sections := by
    refine List.ext_getElem? fun place => ?_
    simp [getElem?_extended, finished]
  rw [← whole]
  exact closes nested

end Painter

/-- **Painted sections show what is open.** At each byte of the line the sections that strokes in order have
painted have the styles that the strokes up to that byte have left open, the outermost first; beyond the
line there are none. -/
theorem stylesAt_paintedSections {text : List Char} {strokes : List Stroke}
    (ordered : InOrder text 0 strokes (Text.byteLength text)) (origin offset : Nat) :
    stylesAt (paintedSections origin strokes (Text.byteLength text)) offset =
      if origin ≤ offset ∧ offset < origin + Text.byteLength text then
        shownAt strokes (offset - origin)
      else [] := by
  split
  · rename_i inside
    have shows := (Painter.shows_empty text origin).draw ordered
    have start := Painter.origin_draw { origin := origin } strokes
    have last := shows.shown (offset - origin) (by omega)
    rw [paintedSections, shows.nested.stylesAt_popAll (Text.isBoundary_byteLength text)]
    rw [start, Nat.add_sub_cancel' inside.1] at last
    exact last
  · rename_i outside
    refine List.map_eq_nil_iff.mpr (List.filter_eq_nil_iff.mpr fun sec member inside => ?_)
    have placed := ((paintedSections_nested ordered origin).1 sec member).1
    have within := Section.contains_iff.mp inside
    have starts := placed.starts
    have ends := placed.ends
    omega

end Scan

end Highlight
