import Highlight.Proofs.Pattern.Search
import Highlight.Scan.Pending

/-! # What pending matches say

Whatever is known of the openings around a walk was found in the text of its line. The match that is taken
next therefore covers whole characters, and after a refresh it starts no earlier than the walk stands
(`Highlight.Scan.within_of_nextMove?`).
-/

namespace Highlight.Scan

open Pattern (Hit)

/-- Whether a match that is known covers whole characters of the text. -/
def Pending.Sound (text : List Char) (pending : Pending) : Prop :=
  ∀ hit, pending.hit? = some hit → hit.Within text

namespace Pending

theorem sound_unknown (text : List Char) : unknown.Sound text := by
  intro hit known
  cases known

theorem hit?_ofSearch (found : Option Hit) : (ofSearch found).hit? = found := by
  cases found <;> rfl

variable {text : List Char} {position : Nat} {pending : Pending} {pattern : Pattern} {hit : Hit}

/-- Refreshing does not make up matches outside of the text. -/
theorem refresh_sound (sound : pending.Sound text) :
    (pending.refresh text position pattern).Sound text := by
  intro hit known
  simp only [refresh] at known
  split at known
  · rw [hit?_ofSearch] at known
    exact (Pattern.find?_within known).2
  · exact sound hit known

/-- A match that is known after refreshing lies ahead. -/
theorem le_start_of_refresh (known : (pending.refresh text position pattern).hit? = some hit) :
    position ≤ hit.start := by
  simp only [refresh] at known
  split at known
  · rw [hit?_ofSearch] at known
    exact (Pattern.find?_within known).1
  · rename_i fresh
    cases pending with
    | unknown => cases known
    | absent => cases known
    | found earlier =>
        cases known
        simpa [isStale] using fresh

end Pending

/-- Whether all known matches cover whole characters of the text. -/
def AllSound (text : List Char) (openings : List Pending) : Prop :=
  ∀ pending ∈ openings, pending.Sound text

theorem allSound_unknown {α : Type} (text : List Char) (items : List α) :
    AllSound text (items.map fun _ => .unknown) := by
  intro pending member
  obtain ⟨_, _, rfl⟩ := List.mem_map.mp member
  exact Pending.sound_unknown text

variable {text : List Char} {position : Nat} {openings : List Pending} {patterns : List Pattern}

/-- Each entry comes from refreshing one of those before. -/
theorem exists_refresh_of_mem {pending : Pending}
    (member : pending ∈ refreshAll patterns text position openings) :
    ∃ earlier ∈ openings, ∃ pattern, pending = earlier.refresh text position pattern := by
  simp only [refreshAll] at member
  induction openings generalizing patterns with
  | nil => simp at member
  | cons first rest ih =>
      cases patterns with
      | nil => simp at member
      | cons pattern patterns =>
          rcases List.mem_cons.mp member with rfl | later
          · exact ⟨first, List.mem_cons_self, pattern, rfl⟩
          · obtain ⟨earlier, inside, found⟩ := ih later
            exact ⟨earlier, List.mem_cons_of_mem _ inside, found⟩

theorem refreshAll_sound (sound : AllSound text openings) :
    AllSound text (refreshAll patterns text position openings) := by
  intro pending member
  obtain ⟨earlier, inside, pattern, rfl⟩ := exists_refresh_of_mem member
  exact Pending.refresh_sound (sound earlier inside)

/-- The first match is the one known for the place it is given with. -/
theorem getElem?_of_earliest? {index : Nat} {hit : Hit}
    (first : earliest? openings = some (index, hit)) :
    ∃ pending, openings[index]? = some pending ∧ pending.hit? = some hit := by
  induction openings generalizing index hit with
  | nil => cases first
  | cons pending rest ih =>
      simp only [earliest?] at first
      split at first
      · cases first
      · rename_i later
        cases first
        obtain ⟨other, place, known⟩ := ih later
        exact ⟨other, by simpa using place, known⟩
      · rename_i known _
        cases first
        exact ⟨pending, rfl, known⟩
      · rename_i known later
        split at first
        · cases first
          obtain ⟨other, place, known⟩ := ih later
          exact ⟨other, by simpa using place, known⟩
        · cases first
          exact ⟨pending, rfl, known⟩

theorem sound_of_earliest? (sound : AllSound text openings) {index : Nat} {hit : Hit}
    (first : earliest? openings = some (index, hit)) : hit.Within text := by
  obtain ⟨pending, place, known⟩ := getElem?_of_earliest? first
  exact sound pending (List.mem_of_getElem? place) hit known

theorem le_start_of_earliest? {index : Nat} {hit : Hit}
    (first : earliest? (refreshAll patterns text position openings) = some (index, hit)) :
    position ≤ hit.start := by
  obtain ⟨pending, place, known⟩ := getElem?_of_earliest? first
  obtain ⟨earlier, _, pattern, rfl⟩ := exists_refresh_of_mem (List.mem_of_getElem? place)
  exact Pending.le_start_of_refresh known

/-- The next move takes either the first opening or the closing. -/
theorem move_of_nextMove? {closing : Option Hit} {move : Move} {hit : Hit}
    (next : nextMove? openings closing = some (move, hit)) :
    (∃ index, move = .opening index ∧ earliest? openings = some (index, hit)) ∨
      move = .closing ∧ closing = some hit := by
  simp only [nextMove?] at next
  split at next
  · cases next
  · cases next
    exact .inr ⟨rfl, rfl⟩
  · rename_i index _ first
    cases next
    exact .inl ⟨index, rfl, first⟩
  · rename_i index _ _ first
    split at next
    · cases next
      exact .inr ⟨rfl, rfl⟩
    · cases next
      exact .inl ⟨index, rfl, first⟩

/-- The match of the next move lies in the text, no earlier than the openings were refreshed at. -/
theorem within_of_nextMove? (sound : AllSound text openings) {closing : Option Hit}
    (closes : ∀ hit, closing = some hit → position ≤ hit.start ∧ hit.Within text) {move : Move}
    {hit : Hit}
    (next : nextMove? (refreshAll patterns text position openings) closing = some (move, hit)) :
    position ≤ hit.start ∧ hit.Within text := by
  rcases move_of_nextMove? next with ⟨index, _, first⟩ | ⟨_, found⟩
  · exact ⟨le_start_of_earliest? first, sound_of_earliest? (refreshAll_sound sound) first⟩
  · exact closes hit found

end Highlight.Scan
