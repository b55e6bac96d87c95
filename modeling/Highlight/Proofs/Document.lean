import Highlight.Document

/-! # Lines of a document

An edit changes the text of one line and leaves the others alone, though an insertion or a removal gives
the lines behind it other numbers. The lines of a document made from a text, joined again, are that text
but for the ends of its lines (`Highlight.Document.joinLines_ofText`).
-/

namespace Highlight.Document

variable {document edited : Document} {number : Nat} {text : String}

theorem take_lines (positive : 1 ≤ number) (inside : number ≤ document.lineCount) :
    document.lines.take number = document.lines.take (number - 1) ++ [document.line number] := by
  obtain ⟨index, rfl⟩ := Nat.exists_eq_add_of_le' positive
  have found := List.getElem?_eq_getElem (show index < document.lines.length from inside)
  rw [Nat.add_sub_cancel, List.take_add_one, Document.line, found]
  rfl

/-- The lines one by one are all lines. -/
theorem map_line_range' (document : Document) :
    (List.range' 1 document.lineCount).map document.line = document.lines := by
  apply List.ext_getElem
  · simp [lineCount]
  · intro index early late
    rw [List.getElem_map, List.getElem_range', Nat.one_mul, Nat.add_comm, line,
      List.getElem?_eq_getElem late]
    rfl

/-- A line that does not exist has no characters. -/
theorem line_mem_lines {c : Char} (member : c ∈ (document.line number).toList) :
    document.line number ∈ document.lines := by
  cases number with
  | zero => exact absurd member List.not_mem_nil
  | succ index =>
      rw [line] at member ⊢
      cases found : document.lines[index]? with
      | none =>
          rw [found] at member
          exact absurd member List.not_mem_nil
      | some text => exact List.mem_of_getElem? found

/-- A replacement leaves every other line as it is. -/
theorem line_of_replaceLine? {other : Nat}
    (possible : document.replaceLine? number text = some edited) (different : other ≠ number) :
    edited.line other = document.line other := by
  unfold replaceLine? at possible
  split at possible
  · cases possible
    cases other with
    | zero => rfl
    | succ index =>
        have apart : number - 1 ≠ index := by omega
        simp only [line, lines_recomputed, List.getElem?_set_ne apart]
  · contradiction

/-- Only a line of the document can be replaced, and there are as many as before. -/
theorem lineCount_of_replaceLine? (possible : document.replaceLine? number text = some edited) :
    1 ≤ number ∧ number ≤ document.lineCount ∧ edited.lineCount = document.lineCount := by
  unfold replaceLine? at possible
  split at possible
  · rename_i inside
    cases possible
    exact ⟨inside.1, inside.2, List.length_set⟩
  · contradiction

/-- Behind an inserted line the others are numbered one higher. -/
theorem line_of_insertLine? (possible : document.insertLine? number text = some edited)
    (other : Nat) :
    edited.line other =
      if other ≤ number then document.line other
      else if other = number + 1 then text else document.line (other - 1) := by
  unfold insertLine? at possible
  split at possible
  · rename_i inside
    cases possible
    rw [lineCount] at inside
    have length : (document.lines.take number).length = number := by
      rw [List.length_take]
      omega
    cases other with
    | zero => rfl
    | succ index =>
        rcases Nat.lt_trichotomy index number with before | rfl | behind
        · rw [if_pos (Nat.succ_le_of_lt before)]
          simp only [line, lines_recomputed]
          rw [List.getElem?_append_left (length.symm ▸ before), List.getElem?_take_of_lt before]
        · rw [if_neg (by omega), if_pos rfl]
          simp only [line, lines_recomputed]
          rw [List.getElem?_append_right (by omega), length, Nat.sub_self]
          rfl
        · obtain ⟨distance, rfl⟩ := Nat.exists_eq_add_of_lt behind
          rw [if_neg (by omega), if_neg (by omega)]
          simp only [line, lines_recomputed, Nat.add_sub_cancel]
          rw [List.getElem?_append_right (by omega), length,
            show number + distance + 1 - number = distance + 1 by omega, List.getElem?_cons_succ,
            List.getElem?_drop]
  · contradiction

/-- A line can be inserted behind any of the lines, or in front of all. -/
theorem lineCount_of_insertLine? (possible : document.insertLine? number text = some edited) :
    number ≤ document.lineCount ∧ edited.lineCount = document.lineCount + 1 := by
  unfold insertLine? at possible
  split at possible
  · rename_i inside
    cases possible
    rw [lineCount] at inside
    refine ⟨inside, ?_⟩
    simp only [lineCount, lines_recomputed, List.length_append, List.length_cons, List.length_take,
      List.length_drop]
    omega
  · contradiction

/-- Behind a removed line the others are numbered one lower. -/
theorem line_of_removeLine? {other : Nat} (possible : document.removeLine? number = some edited)
    (positive : 1 ≤ other) :
    edited.line other = document.line (if other < number then other else other + 1) := by
  unfold removeLine? at possible
  split at possible
  · rename_i inside
    cases possible
    obtain ⟨index, rfl⟩ := Nat.exists_eq_add_of_le' positive
    simp only [line, lines_recomputed, List.getElem?_eraseIdx]
    by_cases before : index + 1 < number
    · rw [if_pos before, if_pos (by omega)]
    · rw [if_neg before, if_neg (by omega)]
  · contradiction

/-- Only a line of the document can be removed. -/
theorem lineCount_of_removeLine? (possible : document.removeLine? number = some edited) :
    1 ≤ number ∧ number ≤ document.lineCount ∧ edited.lineCount + 1 = document.lineCount := by
  unfold removeLine? at possible
  split at possible
  · rename_i inside
    cases possible
    rw [lineCount] at inside
    refine ⟨inside.1, inside.2.1, ?_⟩
    rw [lineCount, lineCount, lines_recomputed, List.length_eraseIdx_of_lt (by omega)]
    omega
  · contradiction

/-! ## Documents made from texts -/

/-- Joined lines have the characters of each of them. -/
theorem mem_joinLines {lines : List (List Char)} {line : List Char} {c : Char} (listed : line ∈ lines)
    (member : c ∈ line) : c ∈ joinLines lines := by
  induction lines with
  | nil => cases listed
  | cons first rest ih =>
      cases rest with
      | nil =>
          rw [List.mem_singleton.mp listed] at member
          exact member
      | cons second others =>
          rw [joinLines, List.mem_append]
          · rcases List.mem_cons.mp listed with rfl | later
            · exact .inl member
            · exact .inr (List.mem_cons_of_mem _ (ih later))
          · simp

/-- Line ends are normalized without adding a character. -/
theorem mem_of_mem_normalizeLineEnds {c : Char} {text : List Char}
    (member : c ∈ normalizeLineEnds text) : c ∈ text := by
  fun_induction normalizeLineEnds text with
  | case1 rest ih =>
      rcases List.mem_cons.mp member with rfl | later
      · exact List.mem_cons_of_mem _ List.mem_cons_self
      · exact List.mem_cons_of_mem _ (List.mem_cons_of_mem _ (ih later))
  | case2 first rest _ ih =>
      rcases List.mem_cons.mp member with rfl | later
      · exact List.mem_cons_self
      · exact List.mem_cons_of_mem _ (ih later)
  | case3 => exact member

/-- Splitting a text into lines and joining them loses only the ends of lines. -/
theorem joinLines_ofText (text : String) :
    joinLines ((ofText text).lines.map String.toList) = normalizeLineEnds text.toList := by
  have characters : (ofText text).lines.map String.toList =
      splitLines (normalizeLineEnds text.toList) := by
    rw [ofText, lines_ofLines, List.map_map]
    exact (List.map_congr_left fun _ _ => String.toList_ofList).trans (List.map_id _)
  rw [characters, joinLines_splitLines]

theorem mem_of_mem_line_ofText {text : String} {c : Char}
    (member : c ∈ ((ofText text).line number).toList) : c ∈ text.toList := by
  apply mem_of_mem_normalizeLineEnds
  rw [← joinLines_ofText]
  exact mem_joinLines (List.mem_map_of_mem (line_mem_lines member)) member

end Highlight.Document
