import Mathlib.Data.List.Infix
import Mathlib.Logic.Function.Iterate
import Highlight.Proofs.Document

/-! # Reading a saved document again

Reading a text drops one carriage return before each line feed. Where several carriage returns stand before
a line feed the others are kept, so that the text which is saved has such ends of lines once more and
reading it again gives another document. Each reading takes one more carriage return off every such run.
-/

namespace Highlight.Document

/-- That many carriage returns and a line feed. -/
def lineEnd (returns : Nat) : List Char := List.replicate returns '\r' ++ ['\n']

theorem lineEnd_prefix_cons {returns : Nat} {c : Char} {text : List Char} :
    lineEnd (returns + 1) <+: c :: text ↔ '\r' = c ∧ lineEnd returns <+: text :=
  List.cons_prefix_cons

theorem not_lineEnd_prefix_feed (returns : Nat) (text : List Char) :
    ¬ lineEnd (returns + 1) <+: '\n' :: text :=
  fun starts => absurd (lineEnd_prefix_cons.mp starts).1 (by decide)

theorem lineEnd_infix_feed {returns : Nat} {text : List Char} :
    lineEnd (returns + 1) <:+: '\n' :: text ↔ lineEnd (returns + 1) <:+: text := by
  rw [List.infix_cons_iff]
  exact or_iff_right (not_lineEnd_prefix_feed returns text)

/-- Nothing is dropped from a text without pairs of a carriage return and a line feed. -/
theorem normalizeLineEnds_eq_self_iff (text : List Char) :
    normalizeLineEnds text = text ↔ ¬ lineEnd 1 <:+: text := by
  fun_induction normalizeLineEnds text with
  | case1 rest ih =>
      refine iff_of_false (fun same => absurd (List.cons.inj same).1 (by decide)) (not_not_intro ?_)
      exact ⟨[], rest, rfl⟩
  | case2 c rest apart ih =>
      have split : ¬ lineEnd 1 <+: c :: rest := by
        rw [lineEnd_prefix_cons]
        rintro ⟨rfl, behind, rfl⟩
        exact apart behind rfl rfl
      rw [List.infix_cons_iff, or_iff_right split, ← ih]
      exact ⟨fun same => (List.cons.inj same).2, fun same => by rw [same]⟩
  | case3 => exact iff_of_true rfl (by decide)

/-- What a text starts with that starts with an end of line after it has been read. -/
theorem lineEnd_prefix_normalizeLineEnds {returns : Nat} {text : List Char} :
    lineEnd returns <+: normalizeLineEnds text ↔
      lineEnd (returns + 1) <+: text ∨ returns = 0 ∧ lineEnd 0 <+: text := by
  fun_induction normalizeLineEnds text generalizing returns with
  | case1 rest ih =>
      cases returns with
      | zero => exact iff_of_true ⟨_, rfl⟩ (.inl ⟨rest, rfl⟩)
      | succ returns =>
          refine iff_of_false (not_lineEnd_prefix_feed returns _) ?_
          rintro (starts | ⟨zero, _⟩)
          · exact not_lineEnd_prefix_feed returns rest (lineEnd_prefix_cons.mp starts).2
          · exact absurd zero (Nat.succ_ne_zero returns)
  | case2 c rest apart ih =>
      have feed : '\r' = c → ¬ lineEnd 0 <+: rest := by
        rintro rfl ⟨behind, rfl⟩
        exact apart behind rfl rfl
      cases returns with
      | zero =>
          rw [lineEnd_prefix_cons]
          constructor
          · rintro ⟨behind, same⟩
            exact .inr ⟨rfl, rest, by rw [← (List.cons.inj same).1]; rfl⟩
          · rintro (⟨ret, starts⟩ | ⟨_, behind, same⟩)
            · exact absurd starts (feed ret)
            · exact ⟨normalizeLineEnds rest, by rw [← (List.cons.inj same).1]; rfl⟩
      | succ returns =>
          rw [lineEnd_prefix_cons, lineEnd_prefix_cons, ih]
          constructor
          · rintro ⟨ret, starts | ⟨_, starts⟩⟩
            · exact .inl ⟨ret, starts⟩
            · exact absurd starts (feed ret)
          · rintro (⟨ret, starts⟩ | ⟨zero, _⟩)
            · exact ⟨ret, .inl starts⟩
            · exact absurd zero (Nat.succ_ne_zero returns)
  | case3 =>
      cases returns <;> simp [lineEnd]

/-- Reading a text takes one carriage return off every run of them before a line feed. -/
theorem lineEnd_infix_normalizeLineEnds {returns : Nat} {text : List Char} :
    lineEnd (returns + 1) <:+: normalizeLineEnds text ↔ lineEnd (returns + 2) <:+: text := by
  fun_induction normalizeLineEnds text with
  | case1 rest ih =>
      have split : ¬ lineEnd (returns + 2) <+: '\r' :: '\n' :: rest := fun starts =>
        not_lineEnd_prefix_feed returns rest (lineEnd_prefix_cons.mp starts).2
      rw [lineEnd_infix_feed, ih, List.infix_cons_iff, or_iff_right split, lineEnd_infix_feed]
  | case2 c rest apart ih =>
      have starts : lineEnd (returns + 1) <+: c :: normalizeLineEnds rest ↔
          lineEnd (returns + 2) <+: c :: rest := by
        rw [lineEnd_prefix_cons, lineEnd_prefix_cons, lineEnd_prefix_normalizeLineEnds]
        refine and_congr_right fun ret => or_iff_left ?_
        rintro ⟨_, behind, rfl⟩
        exact apart behind ret.symm rfl
      rw [List.infix_cons_iff, List.infix_cons_iff, ih, starts]
  | case3 => exact iff_of_false (by simp [lineEnd]) (by simp [lineEnd])

/-! ## Texts of documents -/

theorem toList_text_ofText (text : String) :
    (ofText text).text.toList = normalizeLineEnds text.toList := by
  rw [Document.text, String.toList_ofList, joinLines_ofText]

/-- Two texts make the same document if they are the same but for what reading drops. -/
theorem ofText_eq_iff {first second : String} :
    ofText first = ofText second ↔
      normalizeLineEnds first.toList = normalizeLineEnds second.toList := by
  constructor
  · intro same
    rw [← toList_text_ofText, ← toList_text_ofText, same]
  · intro same
    rw [ofText, ofText, same]

/-- The text that is saved after a text has been read. -/
def reread (text : String) : String := (ofText text).text

theorem lineEnd_infix_reread {returns : Nat} {text : String} :
    lineEnd (returns + 1) <:+: (reread text).toList ↔ lineEnd (returns + 2) <:+: text.toList := by
  rw [reread, toList_text_ofText, lineEnd_infix_normalizeLineEnds]

/-- **When reading a saved document again changes nothing.** A text is saved with a carriage return before a
line feed exactly if it has two in a row before one, and these are the texts whose saved document is another
one when it is read again. In general that many rounds of reading and saving remove every such end of a line
that has no more carriage returns than rounds. -/
theorem reread_stable_iff (text : String) :
    (ofText (reread text) = ofText text ↔ ¬ lineEnd 2 <:+: text.toList) ∧
      ∀ rounds, lineEnd 1 <:+: (reread^[rounds] text).toList ↔
        lineEnd (rounds + 1) <:+: text.toList := by
  constructor
  · rw [ofText_eq_iff, reread, toList_text_ofText, normalizeLineEnds_eq_self_iff,
      lineEnd_infix_normalizeLineEnds]
  · intro rounds
    induction rounds generalizing text with
    | zero => rfl
    | succ rounds ih => rw [Function.iterate_succ_apply, ih, lineEnd_infix_reread]

/-- Two carriage returns before a line feed: the first line loses one when the text is read, and the other
when the saved text is read again. -/
theorem reread_unstable :
    reread "\r\r\n" = "\r\n" ∧ (ofText "\r\r\n").line 1 = "\r" ∧
      (ofText (reread "\r\r\n")).line 1 = "" ∧ ofText (reread "\r\r\n") ≠ ofText "\r\r\n" := by
  decide +kernel

end Highlight.Document
