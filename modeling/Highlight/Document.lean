import Highlight.Text.Bytes

/-! # Documents

A document is a list of lines, numbered from 1, without their terminators. The text of a document joins
its lines by line feeds, and places in it are counted in bytes of that text. The offsets at which lines start
are kept in a table beside the lines, which every edit computes again.
-/

namespace Highlight

/-- The lines of a text and the offset of the first byte of every line. Nothing in the type ties the two
together: that the offsets are those of the lines is for the edits to maintain. -/
structure Document where
  lines : List String
  starts : List Nat
  deriving DecidableEq

namespace Document

/-- The text with each carriage return that stands before a line feed dropped. -/
def normalizeLineEnds : List Char → List Char
  | '\r' :: '\n' :: rest => '\n' :: normalizeLineEnds rest
  | c :: rest => c :: normalizeLineEnds rest
  | [] => []

/-- The stretches of a text between line feeds. -/
def splitLines : List Char → List (List Char)
  | [] => [[]]
  | c :: rest =>
    if c = '\n' then [] :: splitLines rest
    else
      match splitLines rest with
      | [] => [[c]]
      | first :: others => (c :: first) :: others

/-- The lines of a text, joined by line feeds. -/
def joinLines : List (List Char) → List Char
  | [] => []
  | [line] => line
  | line :: rest => line ++ '\n' :: joinLines rest

/-- The offsets of lines laid out from an offset on, each with a line feed after it. -/
def startsFrom : Nat → List String → List Nat
  | _, [] => []
  | offset, line :: rest => offset :: startsFrom (offset + (Text.byteLength line.toList + 1)) rest

/-- The document with its offsets computed again. -/
def recomputed (document : Document) : Document :=
  { document with starts := startsFrom 0 document.lines }

/-- The document with the given lines. -/
def ofLines (lines : List String) : Document := recomputed ⟨lines, []⟩

/-- The document with the given text. -/
def ofText (text : String) : Document :=
  ofLines ((splitLines (normalizeLineEnds text.toList)).map String.ofList)

/-- The full text. -/
def text (document : Document) : String :=
  String.ofList (joinLines (document.lines.map String.toList))

/-- The number of lines. -/
def lineCount (document : Document) : Nat := document.lines.length

/-- The text of a line; the empty text for a line that does not exist. -/
def line (document : Document) (number : Nat) : String :=
  match number with
  | 0 => ""
  | index + 1 => (document.lines[index]?).getD ""

/-- The offset of the first byte of a line; 0 for a line that does not exist. -/
def startOffset (document : Document) (number : Nat) : Nat :=
  match number with
  | 0 => 0
  | index + 1 => (document.starts[index]?).getD 0

/-- The offset just past the last byte of a line. -/
def endOffset (document : Document) (number : Nat) : Nat :=
  document.startOffset number + Text.byteLength (document.line number).toList

/-- Replaces the text of a line, if the line exists. -/
def replaceLine? (document : Document) (number : Nat) (text : String) : Option Document :=
  if 1 ≤ number ∧ number ≤ document.lineCount then
    some { document with lines := document.lines.set (number - 1) text }.recomputed
  else none

/-- Inserts a line after the line with the given number, or at the top after number 0. -/
def insertLine? (document : Document) (after : Nat) (text : String) : Option Document :=
  if after ≤ document.lineCount then
    some { document with
      lines := document.lines.take after ++ text :: document.lines.drop after }.recomputed
  else none

/-- Removes a line, if the line exists and is not the only one. -/
def removeLine? (document : Document) (number : Nat) : Option Document :=
  if 1 ≤ number ∧ number ≤ document.lineCount ∧ document.lineCount ≠ 1 then
    some { document with lines := document.lines.eraseIdx (number - 1) }.recomputed
  else none

/-- Computing the offsets again leaves the lines as they are. -/
@[simp]
theorem lines_recomputed (document : Document) : document.recomputed.lines = document.lines := rfl

@[simp]
theorem lines_ofLines (lines : List String) : (ofLines lines).lines = lines := rfl

/-- There is at least one line. -/
theorem splitLines_ne_nil (text : List Char) : splitLines text ≠ [] := by
  cases text with
  | nil => simp [splitLines]
  | cons c rest =>
    simp only [splitLines]
    split
    · simp
    · split <;> simp

/-- Joining the lines of a text gives the text back. -/
theorem joinLines_splitLines (text : List Char) : joinLines (splitLines text) = text := by
  induction text with
  | nil => rfl
  | cons c rest ih =>
    have lines := splitLines_ne_nil rest
    simp only [splitLines]
    split
    · rename_i feed
      subst feed
      obtain ⟨first, others, split⟩ := List.exists_cons_of_ne_nil lines
      rw [split] at ih
      rw [split, joinLines, ih]
      · rfl
      · simp
    · obtain ⟨first, others, split⟩ := List.exists_cons_of_ne_nil lines
      rw [split] at ih
      rw [split]
      cases others with
      | nil => simpa [joinLines] using ih
      | cons second others => simpa [joinLines] using ih

end Document

end Highlight
