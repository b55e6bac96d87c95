import Mathlib.Data.List.InsertIdx
import Mathlib.Tactic.Common
import Highlight.Proofs.Document

/-! # Coordinates of a document

A document keeps a table of the offsets at which its lines start, while its text joins the lines by line
feeds. The table of a document made from a text is the running sum over its lines, every edit leaves such a
table behind (`Highlight.Document.Tabled`), and a document has the right coordinates exactly if its table is
this one (`Highlight.Document.coordinates_iff`). So after any run of edits there is one offset a line, each
line starts one byte behind the end of the one before it, and the text holds each line at its place
(`Highlight.Document.coordinates_editAll`).
-/

namespace Highlight

namespace Text

/-- The bytes of characters are those of the text that they make. -/
theorem byteLength_eq_utf8ByteSize (text : List Char) :
    byteLength text = (String.ofList text).utf8ByteSize := by
  induction text with
  | nil => rfl
  | cons c rest ih =>
      rw [byteLength_cons, String.ofList_cons, String.utf8ByteSize_append,
        String.utf8ByteSize_singleton, ih]

theorem byteLength_toList (text : String) : byteLength text.toList = text.utf8ByteSize := by
  rw [byteLength_eq_utf8ByteSize, String.ofList_toList]

/-- The bytes from the end of one part of a text to the start of another are those of the part between. -/
theorem extract_toByteArray (front : List Char) (between : String) (behind : List Char) :
    (String.ofList (front ++ (between.toList ++ behind))).toByteArray.extract
        (byteLength front) (byteLength front + byteLength between.toList) =
      between.toByteArray := by
  rw [String.ofList_append, String.ofList_append, String.ofList_toList, String.toByteArray_append,
    String.toByteArray_append]
  have start : byteLength front = (String.ofList front).toByteArray.size := by
    rw [byteLength_eq_utf8ByteSize, String.size_toByteArray]
  have stop : byteLength between.toList = between.toByteArray.size := by
    rw [byteLength_toList, String.size_toByteArray]
  rw [← Nat.add_zero (byteLength front), Nat.add_assoc,
    ByteArray.extract_append_size_add' start, Nat.zero_add]
  exact ByteArray.extract_append_eq_left stop

end Text

namespace Document

variable {document edited : Document} {number : Nat} {text : String}

/-! ## Offsets -/

/-- The characters of lines that are each followed by a line feed. -/
def laidOut (lines : List String) : List Char := lines.flatMap fun line => line.toList ++ ['\n']

theorem laidOut_cons (line : String) (rest : List String) :
    laidOut (line :: rest) = line.toList ++ '\n' :: laidOut rest := by
  rw [laidOut, List.flatMap_cons, List.append_assoc]
  rfl

theorem laidOut_concat (lines : List String) (line : String) :
    laidOut (lines ++ [line]) = laidOut lines ++ (line.toList ++ ['\n']) := by
  rw [laidOut, List.flatMap_append, List.flatMap_singleton]
  rfl

/-- The lines before the last one that is looked at are followed by a line feed each. -/
theorem joinLines_append_cons (front : List String) (line : String) (rest : List String) :
    joinLines ((front ++ line :: rest).map String.toList) =
      laidOut front ++ joinLines ((line :: rest).map String.toList) := by
  induction front with
  | nil => rfl
  | cons first others ih =>
      simp only [laidOut_cons, List.append_assoc, List.cons_append, ← ih]
      cases others with
      | nil => rfl
      | cons second others => rfl

theorem exists_joinLines_cons (line : String) (rest : List String) :
    ∃ behind, joinLines ((line :: rest).map String.toList) = line.toList ++ behind := by
  cases rest with
  | nil => exact ⟨[], (List.append_nil _).symm⟩
  | cons second others => exact ⟨_, rfl⟩

theorem length_startsFrom (offset : Nat) (lines : List String) :
    (startsFrom offset lines).length = lines.length := by
  induction lines generalizing offset with
  | nil => rfl
  | cons line rest ih => rw [startsFrom, List.length_cons, List.length_cons, ih]

/-- The offset of a line counts the bytes of the lines before it. -/
theorem getElem?_startsFrom (offset : Nat) {lines : List String} {index : Nat}
    (inside : index < lines.length) :
    (startsFrom offset lines)[index]? =
      some (offset + Text.byteLength (laidOut (lines.take index))) := by
  induction lines generalizing offset index with
  | nil => exact absurd inside (Nat.not_lt_zero index)
  | cons line rest ih =>
      cases index with
      | zero => rfl
      | succ index =>
          have feed : Text.byteLength ('\n' :: laidOut (rest.take index)) =
              1 + Text.byteLength (laidOut (rest.take index)) := rfl
          rw [startsFrom, List.getElem?_cons_succ, ih _ (Nat.lt_of_succ_lt_succ inside),
            List.take_succ_cons, laidOut_cons, Text.byteLength_append, feed]
          congr 1
          omega

/-! ## The table of a document -/

/-- Whether the table of a document holds the offsets of its lines. -/
def Tabled (document : Document) : Prop := document.starts = startsFrom 0 document.lines

/-- Computing the offsets again makes the table right, whatever it was before. -/
theorem tabled_recomputed (document : Document) : document.recomputed.Tabled := rfl

/-- A document made from a text starts with the right table. -/
theorem tabled_ofText (text : String) : (ofText text).Tabled := tabled_recomputed _

/-- Replacing a line leaves the right table behind. -/
theorem tabled_of_replaceLine? (possible : document.replaceLine? number text = some edited) :
    edited.Tabled := by
  unfold replaceLine? at possible
  split at possible
  · cases possible
    apply tabled_recomputed
  · contradiction

/-- Inserting a line leaves the right table behind. -/
theorem tabled_of_insertLine? (possible : document.insertLine? number text = some edited) :
    edited.Tabled := by
  unfold insertLine? at possible
  split at possible
  · cases possible
    apply tabled_recomputed
  · contradiction

/-- Removing a line leaves the right table behind. -/
theorem tabled_of_removeLine? (possible : document.removeLine? number = some edited) :
    edited.Tabled := by
  unfold removeLine? at possible
  split at possible
  · cases possible
    apply tabled_recomputed
  · contradiction

/-- With the right table, a line starts behind the lines before it, each laid out with a line feed. -/
theorem Tabled.startOffset_eq (tabled : document.Tabled) (positive : 1 ≤ number)
    (inside : number ≤ document.lineCount) :
    document.startOffset number =
      Text.byteLength (laidOut (document.lines.take (number - 1))) := by
  obtain ⟨index, rfl⟩ := Nat.exists_eq_add_of_le' positive
  have entry : document.starts = startsFrom 0 document.lines := tabled
  rw [startOffset, entry, getElem?_startsFrom 0 inside, Nat.zero_add, Nat.add_sub_cancel]
  rfl

theorem lines_eq (positive : 1 ≤ number) (inside : number ≤ document.lineCount) :
    document.lines =
      document.lines.take (number - 1) ++ document.line number :: document.lines.drop number := by
  conv_lhs => rw [← List.take_append_drop number document.lines, take_lines positive inside,
    List.append_assoc, List.singleton_append]

/-- The text of a document, cut in front of one of its lines. -/
theorem text_eq (positive : 1 ≤ number) (inside : number ≤ document.lineCount) :
    document.text = String.ofList (laidOut (document.lines.take (number - 1)) ++
      joinLines ((document.line number :: document.lines.drop number).map String.toList)) := by
  rw [← joinLines_append_cons, ← lines_eq positive inside, text]

/-! ## Coordinates -/

/-- Whether the offsets of a document agree with its text. -/
structure Coordinates (document : Document) : Prop where
  nonempty : 1 ≤ document.lineCount
  starts : document.starts.length = document.lineCount
  first : document.startOffset 1 = 0
  next : ∀ number, 1 ≤ number → number < document.lineCount →
    document.startOffset (number + 1) = document.endOffset number + 1
  last : document.endOffset document.lineCount = document.text.utf8ByteSize
  bytes : ∀ number, 1 ≤ number → number ≤ document.lineCount →
    document.text.toByteArray.extract (document.startOffset number) (document.endOffset number) =
      (document.line number).toByteArray

/-- The right table agrees with the text. -/
theorem Tabled.coordinates (tabled : document.Tabled) (nonempty : 1 ≤ document.lineCount) :
    document.Coordinates where
  nonempty := nonempty
  starts := by
    have entries : document.starts = startsFrom 0 document.lines := tabled
    rw [entries]
    apply length_startsFrom
  first := by
    rw [tabled.startOffset_eq (Nat.le_refl 1) nonempty]
    rfl
  next := by
    intro number positive below
    have feed : Text.byteLength ['\n'] = 1 := rfl
    rw [endOffset, tabled.startOffset_eq (Nat.le_add_left 1 number) below, Nat.add_sub_cancel,
      tabled.startOffset_eq positive (Nat.le_of_lt below), take_lines positive (Nat.le_of_lt below),
      laidOut_concat, Text.byteLength_append, Text.byteLength_append, feed, Nat.add_assoc]
  last := by
    have behind : document.lines.drop document.lineCount = [] := List.drop_length
    rw [text_eq nonempty (Nat.le_refl _), behind, endOffset,
      tabled.startOffset_eq nonempty (Nat.le_refl _), ← Text.byteLength_eq_utf8ByteSize,
      Text.byteLength_append]
    rfl
  bytes := by
    intro number positive inside
    obtain ⟨behind, joined⟩ :=
      exists_joinLines_cons (document.line number) (document.lines.drop number)
    rw [text_eq positive inside, joined, endOffset, tabled.startOffset_eq positive inside]
    apply Text.extract_toByteArray

/-- From the first offset and the steps between lines the whole table follows. -/
theorem Coordinates.startOffset_eq (coordinates : document.Coordinates) (index : Nat)
    (inside : index < document.lineCount) :
    document.startOffset (index + 1) =
      Text.byteLength (laidOut (document.lines.take index)) := by
  induction index with
  | zero => exact coordinates.first
  | succ index ih =>
      have feed : Text.byteLength ['\n'] = 1 := rfl
      have positive : 1 ≤ index + 1 := Nat.le_add_left 1 index
      rw [coordinates.next (index + 1) positive inside, endOffset, ih (Nat.lt_of_succ_lt inside),
        take_lines positive (Nat.le_of_lt inside), Nat.add_sub_cancel, laidOut_concat,
        Text.byteLength_append, Text.byteLength_append, feed, Nat.add_assoc]

/-- The coordinates of a document are right exactly if it has a line and the right table: an edit that leaves
the old table behind is an edit that breaks them. -/
theorem coordinates_iff : document.Coordinates ↔ 1 ≤ document.lineCount ∧ document.Tabled := by
  constructor
  · intro coordinates
    refine ⟨coordinates.nonempty, ?_⟩
    apply List.ext_getElem (coordinates.starts.trans (length_startsFrom 0 document.lines).symm)
    intro index early late
    have inside : index < document.lineCount := coordinates.starts ▸ early
    have entry := coordinates.startOffset_eq index inside
    rw [startOffset, List.getElem?_eq_getElem early] at entry
    have sum := getElem?_startsFrom 0 inside
    rw [List.getElem?_eq_getElem late, Nat.zero_add] at sum
    exact entry.trans (Option.some.inj sum).symm
  · rintro ⟨nonempty, tabled⟩
    exact tabled.coordinates nonempty

/-- The first line has grown and the table has stayed as it was. -/
example : ¬ (⟨["abc", "d"], (ofLines ["ab", "d"]).starts⟩ : Document).Coordinates := by
  rw [coordinates_iff, Tabled]
  decide

/-! ## Runs of edits -/

/-- A change to one line, which may name a line that does not exist. -/
inductive Edit where
  | replace (number : Nat) (text : String)
  | insert (after : Nat) (text : String)
  | remove (number : Nat)
  deriving DecidableEq

namespace Edit

/-- Whether the edit names a line, or a place for a new one, among that many lines, and leaves a line. -/
def Fits (count : Nat) : Edit → Prop
  | replace number _ => 1 ≤ number ∧ number ≤ count
  | insert after _ => after ≤ count
  | remove number => 1 ≤ number ∧ number ≤ count ∧ count ≠ 1

instance (count : Nat) : (edit : Edit) → Decidable (edit.Fits count)
  | replace _ _ => inferInstanceAs (Decidable (_ ∧ _))
  | insert _ _ => inferInstanceAs (Decidable (_ ≤ _))
  | remove _ => inferInstanceAs (Decidable (_ ∧ _))

/-- What the edit does to a list of lines. -/
def applied (lines : List String) : Edit → List String
  | replace number text => lines.set (number - 1) text
  | insert after text => lines.insertIdx after text
  | remove number => lines.eraseIdx (number - 1)

/-- A list of lines stays nonempty under an edit that fits. -/
theorem length_applied_pos {lines : List String} {edit : Edit} (nonempty : 1 ≤ lines.length)
    (fits : edit.Fits lines.length) : 1 ≤ (edit.applied lines).length := by
  cases edit with
  | replace number text =>
      rw [applied, List.length_set]
      exact nonempty
  | insert after text =>
      rw [applied, List.length_insertIdx_of_le_length fits]
      exact Nat.le_add_left 1 _
  | remove number =>
      obtain ⟨positive, inside, several⟩ := fits
      rw [applied, List.length_eraseIdx_of_lt (by omega)]
      omega

end Edit

/-- The document after an edit, if the edit is possible. -/
def edited? (document : Document) : Edit → Option Document
  | .replace number text => document.replaceLine? number text
  | .insert after text => document.insertLine? after text
  | .remove number => document.removeLine? number

/-- Carries out an edit if it is possible, and tells whether it was. -/
def perform (document : Document) (edit : Edit) : Document × Bool :=
  ((document.edited? edit).getD document, (document.edited? edit).isSome)

/-- The document after a run of edits, possible or not. -/
def editAll (document : Document) (edits : List Edit) : Document :=
  edits.foldl (fun current edit => (current.perform edit).1) document

/-- Putting a line between two parts of the lines inserts it. -/
theorem take_append_cons_drop {lines : List String} {after : Nat} (inside : after ≤ lines.length)
    (text : String) : lines.take after ++ text :: lines.drop after = lines.insertIdx after text := by
  induction lines generalizing after with
  | nil =>
      obtain rfl := Nat.le_zero.mp inside
      rfl
  | cons line rest ih =>
      cases after with
      | zero => rfl
      | succ after =>
          rw [List.take_succ_cons, List.drop_succ_cons, List.cons_append, List.insertIdx_succ_cons,
            ih (Nat.le_of_succ_le_succ inside)]

/-- An edit that fits makes the document of the edited lines, its table included. -/
theorem edited?_eq (document : Document) (edit : Edit) :
    document.edited? edit =
      if edit.Fits document.lineCount then some (ofLines (edit.applied document.lines)) else none := by
  cases edit with
  | replace number text => rfl
  | insert after text =>
      by_cases inside : after ≤ document.lineCount
      · rw [edited?, insertLine?, if_pos inside, take_append_cons_drop inside]
        exact (if_pos inside).symm
      · rw [edited?, insertLine?, if_neg inside]
        exact (if_neg inside).symm
  | remove number => rfl

/-- An edit that fits is carried out on the list of lines, and any other changes nothing. -/
theorem perform_eq (document : Document) (edit : Edit) :
    document.perform edit =
      if edit.Fits document.lineCount then (ofLines (edit.applied document.lines), true)
      else (document, false) := by
  rw [perform, edited?_eq]
  split <;> rfl

/-- An edit leaves a line behind. -/
theorem lineCount_perform (nonempty : 1 ≤ document.lineCount) (edit : Edit) :
    1 ≤ (document.perform edit).1.lineCount := by
  rw [perform_eq]
  split
  · rename_i fits
    exact Edit.length_applied_pos nonempty fits
  · exact nonempty

/-- An edit that is possible leaves the right table behind. -/
theorem tabled_of_edited? {edit : Edit} (possible : document.edited? edit = some edited) :
    edited.Tabled := by
  cases edit with
  | replace number text => exact tabled_of_replaceLine? possible
  | insert after text => exact tabled_of_insertLine? possible
  | remove number => exact tabled_of_removeLine? possible

/-- One step of a run: the table stays right, whether the edit is possible or not. -/
theorem Tabled.perform (tabled : document.Tabled) (edit : Edit) :
    (document.perform edit).1.Tabled := by
  rw [Document.perform]
  cases possible : document.edited? edit with
  | none => exact tabled
  | some edited => exact tabled_of_edited? possible

theorem lineCount_editAll (nonempty : 1 ≤ document.lineCount) (edits : List Edit) :
    1 ≤ (document.editAll edits).lineCount := by
  induction edits generalizing document with
  | nil => exact nonempty
  | cons edit rest ih => exact ih (lineCount_perform nonempty edit)

/-- The table stays right along every run of edits. -/
theorem Tabled.editAll (tabled : document.Tabled) (edits : List Edit) :
    (document.editAll edits).Tabled := by
  induction edits generalizing document with
  | nil => exact tabled
  | cons edit rest ih => exact ih (tabled.perform edit)

theorem lineCount_ofText (text : String) : 1 ≤ (ofText text).lineCount := by
  rw [lineCount, ofText, lines_ofLines, List.length_map]
  exact List.length_pos_iff.mpr (splitLines_ne_nil _)

/-- **The coordinates of a document are always right.** After every run of edits of the document of any
text, whatever lines the edits name, there is a line, the stored offsets agree with the text, and the next
edit does to the list of lines what its name says, if it fits, and otherwise nothing. -/
theorem coordinates_editAll (text : String) (edits : List Edit) :
    ((ofText text).editAll edits).Coordinates ∧
      ∀ edit, ((ofText text).editAll edits).perform edit =
        if edit.Fits ((ofText text).editAll edits).lineCount then
          (ofLines (edit.applied ((ofText text).editAll edits).lines), true)
        else ((ofText text).editAll edits, false) := by
  have tabled := (tabled_ofText text).editAll edits
  have nonempty := lineCount_editAll (lineCount_ofText text) edits
  exact ⟨tabled.coordinates nonempty, perform_eq _⟩

end Document

end Highlight
