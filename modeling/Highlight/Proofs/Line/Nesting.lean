import Highlight.Line.Nesting

/-! # Lists of sections that obey the nesting rule

Checking sections one after another comes to a condition on each of them and on each pair of them
(`Highlight.checkSections_eq_ok_iff`).
-/

namespace Highlight

theorem Section.allows_iff {first second : Section} :
    first.allows second = true ↔
      first.stop ≤ second.offset ∨ first.offset ≤ second.offset ∧ second.stop ≤ first.stop := by
  simp [allows, precedes, encloses]

theorem Section.le_offset_of_allows {first second : Section}
    (allowed : first.allows second = true) : first.offset ≤ second.offset := by
  rcases allows_iff.mp allowed with apart | ⟨within, _⟩
  · exact Nat.le_trans (Nat.le_add_right _ _) apart
  · exact within

/-- The check passes if all sections lie within the line and obey the nesting rule pair by pair. Asking this
of neighbours is enough, since the rule is transitive. -/
theorem checkSections_eq_ok_iff (low high index : Nat) (sections : List Section) :
    checkSections low high index sections = .ok () ↔
      (∀ sec ∈ sections, low ≤ sec.offset ∧ sec.stop ≤ high) ∧
        sections.Pairwise fun first second => first.allows second = true := by
  induction sections generalizing index with
  | nil => simp [checkSections]
  | cons first rest ih =>
      simp only [checkSections, List.forall_mem_cons, List.pairwise_cons]
      split
      · rename_i outside
        refine iff_of_false nofun fun ⟨⟨inside, _⟩, _⟩ => ?_
        omega
      · rename_i inside
        split
        · rename_i distance found
          refine iff_of_false nofun fun ⟨_, allowed, _⟩ => ?_
          obtain ⟨within, refused, _⟩ := List.findIdx?_eq_some_iff_getElem.mp found
          simp [allowed _ (List.getElem_mem within)] at refused
        · rename_i absent
          have allowed : ∀ second ∈ rest, first.allows second = true := by
            intro second member
            simpa using List.findIdx?_eq_none_iff.mp absent second member
          rw [ih]
          constructor
          · rintro ⟨all, nested⟩
            exact ⟨⟨by omega, all⟩, allowed, nested⟩
          · rintro ⟨⟨_, all⟩, _, nested⟩
            exact ⟨all, nested⟩

/-- Of sections that follow one another as they may, the fault reported is of one that lies outside of the
bounds. -/
theorem exists_outside_of_checkSections {low high index : Nat} {sections : List Section}
    {fault : SectionFault}
    (nested : sections.Pairwise fun first second => first.allows second = true)
    (fails : checkSections low high index sections = .error fault) :
    ∃ distance sec, fault = .outOfBounds (index + distance) ∧ sections[distance]? = some sec ∧
      (sec.offset < low ∨ high < sec.stop) := by
  induction sections generalizing index with
  | nil => cases fails
  | cons first rest ih =>
      obtain ⟨allowed, apart⟩ := List.pairwise_cons.mp nested
      rw [checkSections] at fails
      by_cases outside : first.offset < low ∨ high < first.stop
      · rw [if_pos outside] at fails
        cases fails
        exact ⟨0, first, rfl, rfl, outside⟩
      · have absent : (rest.findIdx? fun second => !first.allows second) = none := by
          apply List.findIdx?_eq_none_iff.mpr
          intro second member
          rw [allowed second member]
          rfl
        rw [if_neg outside, absent] at fails
        obtain ⟨distance, sec, rfl, listed, beyond⟩ := ih apart fails
        refine ⟨distance + 1, sec, ?_, listed, beyond⟩
        rw [Nat.add_right_comm, Nat.add_assoc]

/-- A line obeys the nesting rule if its sections lie inside it and of two of them the later one starts
where the earlier has ended or lies inside it. -/
theorem StyledLine.validate_eq_ok_iff (line : StyledLine) :
    line.validate = .ok () ↔
      (∀ sec ∈ line.sections, line.offset ≤ sec.offset ∧ sec.stop ≤ line.stop) ∧
        line.sections.Pairwise fun first second =>
          first.stop ≤ second.offset ∨
            first.offset ≤ second.offset ∧ second.stop ≤ first.stop := by
  simp only [validate, checkSections_eq_ok_iff, Section.allows_iff]

end Highlight
