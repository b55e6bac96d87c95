/-! # Byte offsets

Places in a text are counted in bytes of its UTF-8 form. A place is a character boundary if it is the
byte length of some prefix; cutting a text anywhere else has no result.
-/

namespace Highlight.Text

/-- The number of bytes in the UTF-8 form of a text. -/
def byteLength : List Char → Nat
  | [] => 0
  | c :: rest => c.utf8Size + byteLength rest

/-- Whether a character of the text ends, or the text begins, at `count` bytes. -/
def IsBoundary (text : List Char) (count : Nat) : Prop :=
  ∃ front, front <+: text ∧ byteLength front = count

/-- The longest prefix of no more than `count` bytes. -/
def takeBytes : Nat → List Char → List Char
  | _, [] => []
  | count, c :: rest =>
    if c.utf8Size ≤ count then c :: takeBytes (count - c.utf8Size) rest else []

/-- The text before and after the character boundary at `count` bytes. -/
def splitAtByte? : Nat → List Char → Option (List Char × List Char)
  | 0, text => some ([], text)
  | _ + 1, [] => none
  | count + 1, c :: rest =>
    if c.utf8Size ≤ count + 1 then
      (splitAtByte? (count + 1 - c.utf8Size) rest).map fun parts => (c :: parts.1, parts.2)
    else none

/-- The text from byte `start` up to byte `stop`, if both are character boundaries in order. -/
def slice? (text : List Char) (start stop : Nat) : Option (List Char) := do
  let (_, after) ← splitAtByte? start text
  if stop < start then
    none
  else
    let (between, _) ← splitAtByte? (stop - start) after
    return between

@[simp] theorem byteLength_nil : byteLength [] = 0 := rfl

@[simp] theorem byteLength_cons (c : Char) (text : List Char) :
    byteLength (c :: text) = c.utf8Size + byteLength text := rfl

@[simp] theorem byteLength_append (front back : List Char) :
    byteLength (front ++ back) = byteLength front + byteLength back := by
  induction front with
  | nil => simp
  | cons c rest ih => simp [ih, Nat.add_assoc]

end Highlight.Text
