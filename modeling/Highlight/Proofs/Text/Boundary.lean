import Highlight.Text.Bytes

/-! # Character boundaries

A place in a text is a character boundary if some prefix of the text is that many bytes long. A boundary
of a prefix is one of the whole text (`Highlight.Text.IsBoundary.of_prefix`), and cutting a text to a
number of bytes leaves a prefix of it (`Highlight.Text.takeBytes_prefix`). Between two boundaries a text
can be sliced (`Highlight.Text.slice?_append`).
-/

namespace Highlight.Text

theorem isBoundary_zero (text : List Char) : IsBoundary text 0 :=
  ⟨[], List.nil_prefix, rfl⟩

theorem isBoundary_byteLength (text : List Char) : IsBoundary text (byteLength text) :=
  ⟨text, List.prefix_rfl, rfl⟩

theorem IsBoundary.le_byteLength {text : List Char} {count : Nat}
    (boundary : IsBoundary text count) : count ≤ byteLength text := by
  obtain ⟨front, ⟨back, rfl⟩, rfl⟩ := boundary
  rw [byteLength_append]
  exact Nat.le_add_right _ _

theorem IsBoundary.of_prefix {text whole : List Char} {count : Nat}
    (boundary : IsBoundary text count) (starts : text <+: whole) : IsBoundary whole count := by
  obtain ⟨front, first, length⟩ := boundary
  exact ⟨front, first.trans starts, length⟩

/-- Cutting a text to a number of bytes leaves a prefix of it. -/
theorem takeBytes_prefix (count : Nat) (text : List Char) : takeBytes count text <+: text := by
  induction text generalizing count with
  | nil => exact List.nil_prefix
  | cons c rest ih =>
      simp only [takeBytes]
      split
      · exact List.cons_prefix_cons.mpr ⟨rfl, ih _⟩
      · exact List.nil_prefix

/-- What is left has no more bytes than that. -/
theorem byteLength_takeBytes_le (count : Nat) (text : List Char) :
    byteLength (takeBytes count text) ≤ count := by
  induction text generalizing count with
  | nil => exact Nat.zero_le _
  | cons c rest ih =>
      simp only [takeBytes]
      split
      · rename_i fits
        have within := ih (count - c.utf8Size)
        rw [byteLength_cons]
        omega
      · exact Nat.zero_le _

/-- Only the empty text has no bytes. -/
theorem byteLength_eq_zero_iff {text : List Char} : byteLength text = 0 ↔ text = [] := by
  cases text with
  | nil => simp
  | cons c rest =>
      have positive := c.utf8Size_pos
      simp only [byteLength_cons, reduceCtorEq, iff_false]
      omega

/-- A boundary in the back part of a text splits that part. -/
theorem IsBoundary.split {front back : List Char} {count : Nat}
    (boundary : IsBoundary (front ++ back) count) (behind : byteLength front ≤ count) :
    ∃ middle rest, back = middle ++ rest ∧ byteLength (front ++ middle) = count := by
  obtain ⟨first, starts, rfl⟩ := boundary
  rcases List.prefix_or_prefix_of_prefix (List.prefix_append front back) starts with
    ⟨middle, rfl⟩ | ⟨extra, rfl⟩
  · obtain ⟨rest, same⟩ := starts
    rw [List.append_assoc, List.append_cancel_left_eq] at same
    exact ⟨middle, rest, same.symm, rfl⟩
  · rw [byteLength_append] at behind
    have nothing : extra = [] := byteLength_eq_zero_iff.mp (by omega)
    exact ⟨[], back, rfl, by simp [nothing]⟩

/-- At a boundary exactly the front is left. -/
theorem takeBytes_append (front back : List Char) : takeBytes (byteLength front) (front ++ back) = front := by
  induction front with
  | nil =>
      cases back with
      | nil => rfl
      | cons c back => exact if_neg (Nat.not_le_of_lt c.utf8Size_pos)
  | cons c front ih =>
      rw [List.cons_append, takeBytes, byteLength_cons, if_pos (Nat.le_add_right _ _),
        Nat.add_sub_cancel_left, ih]

/-- What is left of a text that is cut off at a boundary behind a character. -/
theorem exists_takeBytes_eq {front rest : List Char} {c : Char} {stop : Nat}
    (boundary : IsBoundary (front ++ c :: rest) stop) (behind : byteLength front < stop) :
    ∃ more, takeBytes stop (front ++ c :: rest) = front ++ c :: more ∧
      byteLength (front ++ c :: more) = stop := by
  obtain ⟨middle, last, same, length⟩ := boundary.split (Nat.le_of_lt behind)
  cases middle with
  | nil =>
      rw [List.append_nil] at length
      omega
  | cons other more =>
      obtain ⟨rfl, rfl⟩ := List.cons.inj same
      refine ⟨more, ?_, length⟩
      have cut := takeBytes_append (front ++ c :: more) last
      rwa [length, List.append_assoc, List.cons_append] at cut

/-- A text is split at a boundary into the two parts that meet there. -/
theorem splitAtByte?_append (front back : List Char) :
    splitAtByte? (byteLength front) (front ++ back) = some (front, back) := by
  induction front with
  | nil =>
      rw [byteLength_nil, List.nil_append]
      cases back <;> rfl
  | cons c rest ih =>
      obtain ⟨size, positive⟩ := Nat.exists_eq_add_of_lt c.utf8Size_pos
      have length : byteLength (c :: rest) = size + byteLength rest + 1 := by
        rw [byteLength_cons]
        omega
      have fits : c.utf8Size ≤ size + byteLength rest + 1 := by omega
      have remains : size + byteLength rest + 1 - c.utf8Size = byteLength rest := by omega
      rw [length, List.cons_append, splitAtByte?, if_pos fits, remains, ih]
      rfl

/-- Between two boundaries a text has a slice. -/
theorem slice?_append (front middle back : List Char) :
    slice? (front ++ (middle ++ back)) (byteLength front) (byteLength (front ++ middle)) =
      some middle := by
  have forward : ¬ byteLength (front ++ middle) < byteLength front := by
    rw [byteLength_append]
    omega
  have length : byteLength (front ++ middle) - byteLength front = byteLength middle := by
    rw [byteLength_append, Nat.add_sub_cancel_left]
  simp only [slice?, splitAtByte?_append, Option.bind_eq_bind, Option.bind_some, if_neg forward,
    length]
  rfl

end Highlight.Text
