import Highlight.Proofs.Line.Laid

/-! # The sections around a byte

A line without empty sections is known from the sections that contain each byte
(`Highlight.Section.eq_of_covering_eq`). Where a section is laid over others, a byte of it lies in the
piece that is left between the nearest starts and ends of those others on either side
(`Highlight.Section.cut`, `Highlight.Laid.covering_inside`).
-/

namespace Highlight

namespace Section

/-- The sections that contain a byte, outermost first. -/
def covering (sections : List Section) (offset : Nat) : List Section :=
  sections.filter (·.contains offset)

/-- What is left of a section around a byte when it is cut at a place. -/
def cutAt (whole : Section) (offset place : Nat) : Section :=
  if place ≤ offset then
    between (max whole.offset place) whole.stop whole.style
  else
    between whole.offset (min whole.stop place) whole.style

/-- What is left of a section around a byte when it is cut where other sections start or end. -/
def cut (base : List Section) (offset : Nat) (whole : Section) : Section :=
  base.foldl (fun piece sec => (piece.cutAt offset sec.offset).cutAt offset sec.stop) whole

/-- The piece of a section around a byte that is left between the nearest starts and ends of base
sections. -/
structure CutAround (base : List Section) (offset : Nat) (whole piece : Section) : Prop where
  style : piece.style = whole.style
  starts : whole.offset ≤ piece.offset
  ends : piece.stop ≤ whole.stop
  opens : piece.offset = whole.offset ∨ IsEdge base piece.offset
  closes : piece.stop = whole.stop ∨ IsEdge base piece.stop
  covers : piece.offset ≤ offset ∧ offset < piece.stop
  undivided : ∀ place, IsEdge base place → place ≤ piece.offset ∨ piece.stop ≤ place

variable {base sections first second : List Section} {sec whole piece : Section} {offset : Nat}

/-! ## Sections from what contains each byte -/

theorem covering_append (first second : List Section) (offset : Nat) :
    covering (first ++ second) offset = covering first offset ++ covering second offset :=
  List.filter_append _ _

theorem covering_cons (sec : Section) (rest : List Section) (offset : Nat) :
    covering (sec :: rest) offset =
      if sec.offset ≤ offset ∧ offset < sec.stop then sec :: covering rest offset
      else covering rest offset := by
  rw [covering, List.filter_cons]
  exact if_congr contains_iff rfl rfl

theorem covering_cons_of_not_contains (outside : offset < sec.offset ∨ sec.stop ≤ offset) :
    covering (sec :: sections) offset = covering sections offset := by
  rw [covering_cons, if_neg (by omega)]

theorem mem_covering_iff :
    sec ∈ covering sections offset ↔ sec ∈ sections ∧ sec.offset ≤ offset ∧ offset < sec.stop := by
  rw [covering, List.mem_filter, contains_iff]

theorem covering_eq_nil (before : ∀ sec ∈ sections, offset < sec.offset) :
    covering sections offset = [] := by
  apply List.filter_eq_nil_iff.mpr
  intro sec member inside
  exact Nat.not_le_of_lt (before sec member) (contains_iff.mp inside).1

theorem covering_start (filled : 0 < sec.length) (rest : List Section) :
    covering (sec :: rest) sec.offset = sec :: covering rest sec.offset := by
  rw [covering_cons, if_pos ⟨Nat.le_refl _, Nat.lt_add_of_pos_right filled⟩]

/-- The first section of a list lies in the other one too, which therefore does not start behind it. -/
theorem offset_le_of_covering_eq {head : Section} {rest others : List Section} (filled : 0 < sec.length)
    (behind : ∀ next ∈ others, head.allows next = true)
    (same : covering (sec :: rest) sec.offset = covering (head :: others) sec.offset) :
    head.offset ≤ sec.offset := by
  rw [covering_start filled] at same
  have listed : sec ∈ head :: others := (mem_covering_iff.mp (same ▸ List.mem_cons_self)).1
  rcases List.mem_cons.mp listed with rfl | later
  · exact Nat.le_refl _
  · exact le_offset_of_allows (behind sec later)

/-- Two lists of sections that are in order and not empty are the same if each byte lies in the same
sections. -/
theorem eq_of_covering_eq (filled : ∀ sec ∈ first, 0 < sec.length)
    (otherFilled : ∀ sec ∈ second, 0 < sec.length)
    (nested : first.Pairwise fun sec next => sec.allows next = true)
    (otherNested : second.Pairwise fun sec next => sec.allows next = true)
    (same : ∀ offset, covering first offset = covering second offset) : first = second := by
  induction first generalizing second with
  | nil =>
      cases second with
      | nil => rfl
      | cons head others =>
          have shown := same head.offset
          rw [covering_start (otherFilled head List.mem_cons_self)] at shown
          cases shown
  | cons sec rest ih =>
      obtain ⟨secFilled, restFilled⟩ := List.forall_mem_cons.mp filled
      obtain ⟨behind, restNested⟩ := List.pairwise_cons.mp nested
      cases second with
      | nil =>
          have shown := same sec.offset
          rw [covering_start secFilled] at shown
          cases shown
      | cons head others =>
          obtain ⟨headFilled, othersFilled⟩ := List.forall_mem_cons.mp otherFilled
          obtain ⟨otherBehind, othersNested⟩ := List.pairwise_cons.mp otherNested
          have start : sec.offset = head.offset := Nat.le_antisymm
            (offset_le_of_covering_eq headFilled behind (same head.offset).symm)
            (offset_le_of_covering_eq secFilled otherBehind (same sec.offset))
          have heads := same sec.offset
          rw [covering_start secFilled, start, covering_start headFilled] at heads
          obtain ⟨rfl, _⟩ := List.cons.inj heads
          congr 1
          refine ih restFilled othersFilled restNested othersNested fun offset => ?_
          have shown := same offset
          rw [covering_cons, covering_cons] at shown
          by_cases inside : sec.offset ≤ offset ∧ offset < sec.stop
          · rw [if_pos inside, if_pos inside] at shown
            exact (List.cons.inj shown).2
          · rw [if_neg inside, if_neg inside] at shown
            exact shown

/-! ## Cutting at places -/

theorem cut_append (first second : List Section) (offset : Nat) (whole : Section) :
    whole.cut (first ++ second) offset = (whole.cut first offset).cut second offset :=
  List.foldl_append

/-- A cut leaves the part on the side of the byte, in the same style. -/
theorem cutAt_spec (place : Nat) (inside : whole.offset ≤ offset ∧ offset < whole.stop) :
    (whole.cutAt offset place).style = whole.style ∧
      (place ≤ offset ∧ (whole.cutAt offset place).offset = max whole.offset place ∧
          (whole.cutAt offset place).stop = whole.stop ∨
        offset < place ∧ (whole.cutAt offset place).offset = whole.offset ∧
          (whole.cutAt offset place).stop = min whole.stop place) := by
  by_cases behind : place ≤ offset
  · rw [cutAt, if_pos behind]
    exact ⟨rfl, .inl ⟨behind, rfl, stop_between (by omega)⟩⟩
  · rw [cutAt, if_neg behind]
    exact ⟨rfl, .inr ⟨by omega, rfl, stop_between (by omega)⟩⟩

namespace CutAround

variable {next : Section}

/-- Where there are no edges, the whole section is left. -/
theorem refl (inside : whole.offset ≤ offset ∧ offset < whole.stop) :
    CutAround [] offset whole whole where
  style := rfl
  starts := Nat.le_refl _
  ends := Nat.le_refl _
  opens := .inl rfl
  closes := .inl rfl
  covers := inside
  undivided := fun _ ⟨_, absent, _⟩ => nomatch absent

/-- One section cuts another where it starts and where it ends. -/
theorem one (sec : Section) (inside : whole.offset ≤ offset ∧ offset < whole.stop) :
    CutAround [sec] offset whole ((whole.cutAt offset sec.offset).cutAt offset sec.stop) := by
  have edges : ∀ place, IsEdge [sec] place ↔ place = sec.offset ∨ place = sec.stop := by
    simp [IsEdge]
  obtain ⟨style, bounds⟩ := cutAt_spec sec.offset inside
  have insideStill : (whole.cutAt offset sec.offset).offset ≤ offset ∧
      offset < (whole.cutAt offset sec.offset).stop := by omega
  obtain ⟨styleAgain, boundsAgain⟩ := cutAt_spec sec.stop insideStill
  have ordered : sec.offset ≤ sec.stop := Nat.le_add_right _ _
  constructor
  · exact styleAgain.trans style
  · omega
  · omega
  · rw [edges]
    omega
  · rw [edges]
    omega
  · omega
  · intro place edge
    rw [edges] at edge
    omega

/-- A stretch of the section is the piece around its bytes if it cannot be made longer or cut further. -/
theorem of_between {start stop : Nat} (starts : whole.offset ≤ start) (ends : stop ≤ whole.stop)
    (opens : start = whole.offset ∨ IsEdge base start) (closes : stop = whole.stop ∨ IsEdge base stop)
    (covers : start ≤ offset ∧ offset < stop)
    (undivided : ∀ place, IsEdge base place → place ≤ start ∨ stop ≤ place) :
    CutAround base offset whole (between start stop whole.style) := by
  have same : (between start stop whole.style).stop = stop := stop_between (by omega)
  rw [← same] at ends closes covers undivided
  exact ⟨rfl, starts, ends, opens, closes, covers, undivided⟩

/-- What is cut twice is cut at the places of both. -/
theorem trans (cut : CutAround first offset whole piece) (again : CutAround second offset piece next) :
    CutAround (first ++ second) offset whole next := by
  have starts := again.starts
  have ends := again.ends
  have inFirst : first ⊆ first ++ second := List.subset_append_left _ _
  have inSecond : second ⊆ first ++ second := List.subset_append_right _ _
  refine ⟨again.style.trans cut.style, Nat.le_trans cut.starts starts, Nat.le_trans ends cut.ends,
    ?_, ?_, again.covers, ?_⟩
  · rcases again.opens with same | edge
    · rw [same]
      exact cut.opens.imp_right (·.mono inFirst)
    · exact .inr (edge.mono inSecond)
  · rcases again.closes with same | edge
    · rw [same]
      exact cut.closes.imp_right (·.mono inFirst)
    · exact .inr (edge.mono inSecond)
  · rintro place ⟨sec, member, edge⟩
    rcases List.mem_append.mp member with earlier | later
    · rcases cut.undivided place ⟨sec, earlier, edge⟩ with before | behind
      · exact .inl (Nat.le_trans before starts)
      · exact .inr (Nat.le_trans ends behind)
    · exact again.undivided place ⟨sec, later, edge⟩

/-- Cutting at the edges one by one leaves the piece between the nearest. -/
theorem cut (base : List Section) (inside : whole.offset ≤ offset ∧ offset < whole.stop) :
    CutAround base offset whole (whole.cut base offset) := by
  induction base generalizing whole with
  | nil => exact .refl inside
  | cons sec rest ih =>
      have first := one sec inside
      exact first.trans (ih first.covers)

/-- Only the starts and ends that lie within the section matter. -/
theorem rebase (cut : CutAround first offset whole piece)
    (edges : ∀ place, whole.offset < place → place < whole.stop →
      (IsEdge first place ↔ IsEdge second place)) : CutAround second offset whole piece := by
  have covers := cut.covers
  have starts := cut.starts
  have ends := cut.ends
  refine { cut with opens := ?_, closes := ?_, undivided := fun place edge => ?_ }
  · by_cases own : piece.offset = whole.offset
    · exact .inl own
    · exact .inr ((edges _ (by omega) (by omega)).mp (cut.opens.resolve_left own))
  · by_cases own : piece.stop = whole.stop
    · exact .inl own
    · exact .inr ((edges _ (by omega) (by omega)).mp (cut.closes.resolve_left own))
  · by_cases within : whole.offset < place ∧ place < whole.stop
    · exact cut.undivided place ((edges place within.1 within.2).mpr edge)
    · omega

/-- There is one such piece: both of its ends are the nearest edges. -/
theorem unique (cut : CutAround base offset whole piece)
    (again : CutAround base offset whole next) : piece = next := by
  have bounds : ∀ {piece next : Section}, CutAround base offset whole piece →
      CutAround base offset whole next → piece.offset ≤ next.offset ∧ next.stop ≤ piece.stop := by
    intro piece next cut again
    have covers := cut.covers
    have coversToo := again.covers
    constructor
    · rcases cut.opens with same | edge
      · exact same ▸ again.starts
      · have apart := again.undivided _ edge
        omega
    · rcases cut.closes with same | edge
      · exact same ▸ again.ends
      · have apart := again.undivided _ edge
        omega
  obtain ⟨early, late⟩ := bounds cut again
  obtain ⟨earlyToo, lateToo⟩ := bounds again cut
  have style : piece.style = next.style := cut.style.trans again.style.symm
  have start : piece.offset = next.offset := Nat.le_antisymm early earlyToo
  have stop : piece.offset + piece.length = next.offset + next.length :=
    Nat.le_antisymm lateToo late
  cases piece
  cases next
  simp_all

theorem eq_cut (around : CutAround base offset whole piece) : piece = whole.cut base offset := by
  have covers := around.covers
  have starts := around.starts
  have ends := around.ends
  exact around.unique (.cut base (by omega))

end CutAround

/-- Where sections of two bases start and end at the same places within a section, they cut it in the
same way. -/
theorem cut_congr (inside : whole.offset ≤ offset ∧ offset < whole.stop)
    (edges : ∀ place, whole.offset < place → place < whole.stop →
      (IsEdge first place ↔ IsEdge second place)) :
    whole.cut first offset = whole.cut second offset :=
  ((CutAround.cut first inside).rebase edges).eq_cut

end Section

namespace Laid

open Section (covering)

variable {base before ahead result : List Section} {whole : Section} {start offset : Nat}

/-- A byte outside of the section lies in the sections it lay in before. -/
theorem covering_outside (laid : Laid base whole before start ahead result)
    (outside : offset < start ∨ whole.stop ≤ offset) :
    covering result offset = covering ahead offset := by
  induction laid with
  | done reached => rfl
  | keep reached later ih =>
      rw [Section.covering_cons, Section.covering_cons, ih outside]
  | @piece before ahead result start middle forward within edge clear free later ih =>
      have stop : (Section.between start middle whole.style).stop = middle :=
        Section.stop_between (Nat.le_of_lt forward)
      have apart : offset < start ∨ middle ≤ offset := by omega
      rw [Section.covering_cons_of_not_contains (stop.symm ▸ apart)]
      exact ih (by omega)

/-- A byte of the section lies, behind the sections it lay in before, in the piece around it. -/
theorem covering_inside (laid : Laid base whole before start ahead result) (late : whole.offset ≤ start)
    (edge : start = whole.offset ∨ IsEdge base start)
    (passed : ∀ sec ∈ before, sec.offset ≤ start)
    (known : ∀ place, whole.offset < place → place < whole.stop → IsEdge base place →
      IsEdge (before ++ ahead) place)
    (inside : start ≤ offset ∧ offset < whole.stop) :
    covering result offset = covering ahead offset ++ [whole.cut base offset] := by
  induction laid with
  | done reached => omega
  | @keep before ahead result start next reached later ih =>
      have same := ih late edge (List.forall_mem_cons.mpr ⟨reached, passed⟩)
        (fun place late early listed => (known place late early listed).mono (by simp)) inside
      rw [Section.covering_cons, Section.covering_cons, same]
      split
      · rfl
      · rfl
  | @piece before ahead result start middle forward within cut clear free later ih =>
      have stop : (Section.between start middle whole.style).stop = middle :=
        Section.stop_between (Nat.le_of_lt forward)
      have closes : middle = whole.stop ∨ IsEdge base middle := by
        rcases IsEdge.cons_iff.mp cut with (starts | ends) | inner
        · omega
        · exact .inl ends
        · exact .inr inner
      by_cases here : offset < middle
      · -- Nothing that comes later contains a byte of the piece.
        have bare : covering ahead offset = [] :=
          Section.covering_eq_nil fun sec member => Nat.lt_of_lt_of_le here (free sec member)
        have undivided : ∀ place, IsEdge base place → place ≤ start ∨ middle ≤ place := by
          intro place listed
          by_contra divides
          obtain ⟨sec, member, at_⟩ := known place (by omega) (by omega) listed
          have ordered : sec.offset ≤ sec.stop := Nat.le_add_right _ _
          rcases List.mem_append.mp member with behind | ahead
          · have started := passed sec behind
            have ended := clear sec behind
            omega
          · have starts := free sec ahead
            omega
        have around := Section.CutAround.of_between late within edge closes ⟨inside.1, here⟩ undivided
        rw [Section.covering_cons, if_pos around.covers, later.covering_outside (.inl here), bare,
          around.eq_cut]
        rfl
      · have apart : offset < start ∨ middle ≤ offset := by omega
        rw [Section.covering_cons_of_not_contains (stop.symm ▸ apart)]
        refine ih (by omega) (closes.imp_left fun ends => ?_) (fun sec member => ?_) known (by omega)
        · omega
        · exact Nat.le_trans (passed sec member) (Nat.le_of_lt forward)

end Laid

end Highlight
