import Highlight.Proofs.Line.Nesting
import Highlight.Proofs.Line.Styles
import Mathlib.Data.List.Basic

/-! # A section laid over others

One section is laid over a list of nested ones in pieces, none of which reaches beyond a place where
another section starts or ends (`Highlight.Laid`). Whatever places the pieces in this way keeps the
nesting rule (`Highlight.Laid.nested`), adds one style to each byte of the section, behind the styles that
the byte had (`Highlight.Laid.stylesAt`), and leaves the other sections as they were
(`Highlight.Laid.woven`).
-/

namespace Highlight

open Section (stylesAt)

/-- Whether a place is the start or the end of one of the sections. -/
def IsEdge (sections : List Section) (place : Nat) : Prop :=
  ∃ sec ∈ sections, place = sec.offset ∨ place = sec.stop

namespace IsEdge

variable {sections more : List Section} {sec : Section} {place : Nat}

theorem offset (member : sec ∈ sections) : IsEdge sections sec.offset := ⟨sec, member, .inl rfl⟩

theorem stop (member : sec ∈ sections) : IsEdge sections sec.stop := ⟨sec, member, .inr rfl⟩

theorem mono (edge : IsEdge sections place) (subset : sections ⊆ more) : IsEdge more place := by
  obtain ⟨sec, member, at_⟩ := edge
  exact ⟨sec, subset member, at_⟩

theorem cons_iff :
    IsEdge (sec :: sections) place ↔ (place = sec.offset ∨ place = sec.stop) ∨ IsEdge sections place :=
  List.exists_mem_cons_iff _ _ _

end IsEdge

namespace Section

theorem stop_between {start stop : Nat} {style : Style} (ordered : start ≤ stop) :
    (between start stop style).stop = stop :=
  Nat.add_sub_of_le ordered

/-- A piece of a section, cut where that section or one of the base sections starts or ends. -/
structure HasPiece (base : List Section) (whole piece : Section) : Prop where
  style : piece.style = whole.style
  nonempty : 0 < piece.length
  starts : whole.offset ≤ piece.offset
  ends : piece.stop ≤ whole.stop
  opens : IsEdge (whole :: base) piece.offset
  closes : IsEdge (whole :: base) piece.stop

/-- Where an earlier section starts or ends within a later one, the later one starts or ends too. -/
theorem edge_of_allows {first second : Section} (allowed : first.allows second = true) {place : Nat}
    (late : second.offset ≤ place) (early : place ≤ second.stop)
    (edge : place = first.offset ∨ place = first.stop) :
    place = second.offset ∨ place = second.stop := by
  have ordered := le_offset_of_allows allowed
  rcases edge with starts | ends
  · exact .inl (by omega)
  · rcases allows_iff.mp allowed with apart | ⟨_, within⟩
    · exact .inl (by omega)
    · exact .inr (by omega)

theorem HasPiece.whole_nonempty {base : List Section} {whole piece : Section}
    (cut : whole.HasPiece base piece) : 0 < whole.length := by
  have filled : piece.offset < piece.stop := Nat.lt_add_of_pos_right cut.nonempty
  apply Nat.pos_of_lt_add_right
  exact Nat.lt_of_le_of_lt cut.starts (Nat.lt_of_lt_of_le filled cut.ends)

/-- A piece is one with respect to other base sections, too, if these have the edges it is cut at. -/
theorem HasPiece.rebase {base other : List Section} {whole piece : Section}
    (cut : whole.HasPiece base piece)
    (edges : ∀ place, whole.offset ≤ place → place ≤ whole.stop → IsEdge base place →
      IsEdge (whole :: other) place) : whole.HasPiece other piece := by
  have ordered : piece.offset ≤ piece.stop := Nat.le_add_right _ _
  have moved : ∀ place, whole.offset ≤ place → place ≤ whole.stop →
      IsEdge (whole :: base) place → IsEdge (whole :: other) place := by
    intro place late early edge
    rcases IsEdge.cons_iff.mp edge with own | outside
    · exact IsEdge.cons_iff.mpr (.inl own)
    · exact edges place late early outside
  have starts := cut.starts
  have ends := cut.ends
  exact { cut with
    opens := moved _ starts (by omega) cut.opens
    closes := moved _ (by omega) ends cut.closes }

end Section

/-- A list of sections with others added to it. -/
inductive Woven (added : Section → Prop) : List Section → List Section → Prop where
  | nil : Woven added [] []
  | keep {sec : Section} {base result : List Section} (rest : Woven added base result) :
      Woven added (sec :: base) (sec :: result)
  | add {sec : Section} {base result : List Section} (new : added sec)
      (rest : Woven added base result) : Woven added base (sec :: result)

namespace Woven

variable {added other : Section → Prop} {base middle result : List Section}

theorem refl (base : List Section) : Woven added base base := by
  induction base with
  | nil => exact .nil
  | cons sec rest ih => exact .keep ih

theorem prepend (front : List Section) (woven : Woven added base result) :
    Woven added (front ++ base) (front ++ result) := by
  induction front with
  | nil => exact woven
  | cons sec rest ih => exact .keep ih

/-- Sections may be added in two rounds. -/
theorem trans (first : Woven added base middle) (second : Woven added middle result) :
    Woven added base result := by
  induction second generalizing base with
  | nil => exact first
  | keep rest ih =>
      cases first with
      | keep earlier => exact .keep (ih earlier)
      | add new earlier => exact .add new (ih earlier)
  | add new rest ih => exact .add new (ih first)

theorem imp (woven : Woven added base result) (weaker : ∀ sec, added sec → other sec) :
    Woven other base result := by
  induction woven with
  | nil => exact .nil
  | keep rest ih => exact .keep ih
  | add new rest ih => exact .add (weaker _ new) ih

theorem sublist (woven : Woven added base result) : base.Sublist result := by
  induction woven with
  | nil => exact .slnil
  | keep rest ih => exact ih.cons_cons _
  | add new rest ih => exact ih.cons _

/-- All others were added. -/
theorem mem_or_added (woven : Woven added base result) {sec : Section} (member : sec ∈ result) :
    sec ∈ base ∨ added sec := by
  induction woven with
  | nil => exact .inl member
  | keep rest ih =>
      rcases List.mem_cons.mp member with rfl | later
      · exact .inl List.mem_cons_self
      · exact (ih later).imp_left (List.mem_cons_of_mem _)
  | add new rest ih =>
      rcases List.mem_cons.mp member with rfl | later
      · exact .inr new
      · exact ih later

end Woven

/-- The rest of a section, from `start` on, laid over the sections `ahead`, where those in `before` have
been passed. A piece does not reach beyond the start of a section ahead, nor beyond the end of one that
has been passed. -/
inductive Laid (base : List Section) (whole : Section) :
    List Section → Nat → List Section → List Section → Prop where
  | done {before ahead : List Section} {start : Nat} (reached : whole.stop ≤ start) :
      Laid base whole before start ahead ahead
  | keep {before ahead result : List Section} {start : Nat} {next : Section}
      (reached : next.offset ≤ start) (later : Laid base whole (next :: before) start ahead result) :
      Laid base whole before start (next :: ahead) (next :: result)
  | piece {before ahead result : List Section} {start middle : Nat} (forward : start < middle)
      (within : middle ≤ whole.stop) (edge : IsEdge (whole :: base) middle)
      (clear : ∀ sec ∈ before, sec.stop ≤ start ∨ middle ≤ sec.stop)
      (free : ∀ sec ∈ ahead, middle ≤ sec.offset)
      (later : Laid base whole before middle ahead result) :
      Laid base whole before start ahead (.between start middle whole.style :: result)

namespace Laid

variable {base before ahead result : List Section} {whole : Section} {start : Nat}

/-- Laying a section puts its style over what is there, from where it begins, and changes nothing else. -/
theorem stylesAt (laid : Laid base whole before start ahead result) (offset : Nat) :
    stylesAt result offset =
      stylesAt ahead offset ++ if start ≤ offset ∧ offset < whole.stop then [whole.style] else [] := by
  induction laid with
  | done reached =>
      rw [if_neg (by omega), List.append_nil]
  | @keep before ahead result start next reached later ih =>
      by_cases inside : next.offset ≤ offset ∧ offset < next.stop
      · rw [Section.stylesAt_cons_of_contains inside, Section.stylesAt_cons_of_contains inside, ih]
        rfl
      · rw [Section.stylesAt_cons_of_not_contains (by omega),
          Section.stylesAt_cons_of_not_contains (by omega), ih]
  | @piece before ahead result start middle forward within edge clear free later ih =>
      have stop : (Section.between start middle whole.style).stop = middle :=
        Section.stop_between (Nat.le_of_lt forward)
      by_cases inside : start ≤ offset ∧ offset < middle
      · -- Nothing that comes later contains a byte of the piece.
        have bare : Section.stylesAt ahead offset = [] :=
          Section.stylesAt_eq_nil fun sec member => Nat.lt_of_lt_of_le inside.2 (free sec member)
        have covers : offset < (Section.between start middle whole.style).stop := by omega
        rw [Section.stylesAt_cons_of_contains ⟨inside.1, covers⟩, ih, bare, if_neg (by omega),
          if_pos (by omega)]
        rfl
      · have outside : offset < start ∨ middle ≤ offset := by omega
        rw [Section.stylesAt_cons_of_not_contains (stop.symm ▸ outside), ih]
        congr 2
        apply propext
        omega

/-- What is laid are pieces of the section. -/
theorem woven (laid : Laid base whole before start ahead result) (late : whole.offset ≤ start)
    (edge : IsEdge (whole :: base) start) : Woven (whole.HasPiece base) ahead result := by
  induction laid with
  | done reached => exact .refl _
  | keep reached later ih => exact .keep (ih late edge)
  | @piece before ahead result start middle forward within cut clear free later ih =>
      have stop : (Section.between start middle whole.style).stop = middle :=
        Section.stop_between (Nat.le_of_lt forward)
      refine .add ?_ (ih (Nat.le_trans late (Nat.le_of_lt forward)) cut)
      exact ⟨rfl, Nat.sub_pos_of_lt forward, late, stop.symm ▸ within, edge, stop.symm ▸ cut⟩

/-- What is laid begins no earlier than the section does. -/
theorem le_offset (laid : Laid base whole before start ahead result) {low : Nat}
    (early : low ≤ start) (free : ∀ sec ∈ ahead, low ≤ sec.offset) :
    ∀ sec ∈ result, low ≤ sec.offset := by
  induction laid with
  | done reached => exact free
  | keep reached later ih =>
      obtain ⟨first, rest⟩ := List.forall_mem_cons.mp free
      exact List.forall_mem_cons.mpr ⟨first, ih early rest⟩
  | piece forward within edge clear _ later ih =>
      exact List.forall_mem_cons.mpr ⟨early, ih (Nat.le_trans early (Nat.le_of_lt forward)) free⟩

/-- Pieces that avoid all starts and ends keep the nesting rule. -/
theorem nested (laid : Laid base whole before start ahead result)
    (passed : ∀ sec ∈ before, sec.offset ≤ start)
    (across : ∀ sec ∈ before, ∀ next ∈ ahead, sec.allows next = true)
    (apart : ahead.Pairwise fun first second => first.allows second = true) :
    (∀ sec ∈ before, ∀ next ∈ result, sec.allows next = true) ∧
      result.Pairwise fun first second => first.allows second = true := by
  induction laid with
  | done reached => exact ⟨across, apart⟩
  | @keep before ahead result start next reached later ih =>
      obtain ⟨fits, rest⟩ := List.pairwise_cons.mp apart
      obtain ⟨outer, inner⟩ := ih (List.forall_mem_cons.mpr ⟨reached, passed⟩)
        (List.forall_mem_cons.mpr ⟨fits, fun sec member other listed =>
          across sec member other (List.mem_cons_of_mem _ listed)⟩) rest
      obtain ⟨behindNext, behind⟩ := List.forall_mem_cons.mp outer
      refine ⟨fun sec member => List.forall_mem_cons.mpr ⟨?_, behind sec member⟩,
        List.pairwise_cons.mpr ⟨behindNext, inner⟩⟩
      exact across sec member next List.mem_cons_self
  | @piece before ahead result start middle forward within edge clear free later ih =>
      have stop : (Section.between start middle whole.style).stop = middle :=
        Section.stop_between (Nat.le_of_lt forward)
      obtain ⟨outer, inner⟩ := ih
        (fun sec member => Nat.le_trans (passed sec member) (Nat.le_of_lt forward)) across apart
      have behindPiece := later.le_offset (Nat.le_refl middle) free
      refine ⟨fun sec member => List.forall_mem_cons.mpr ⟨?_, outer sec member⟩,
        List.pairwise_cons.mpr ⟨fun next listed => ?_, inner⟩⟩
      · apply Section.allows_iff.mpr
        rcases clear sec member with ended | reaches
        · exact .inl ended
        · exact .inr ⟨passed sec member, stop.symm ▸ reaches⟩
      · apply Section.allows_iff.mpr
        exact .inl (stop.symm ▸ behindPiece next listed)

end Laid

end Highlight
