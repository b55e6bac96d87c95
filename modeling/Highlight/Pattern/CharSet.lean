import Highlight.Text.CaseFold
import Highlight.Text.CharClass

/-! # Sets of characters

The sets that a bracketed class or a class escape of a pattern denotes, and their closure under letter case.
-/

namespace Highlight.Pattern

/-- A set of characters. -/
inductive CharSet where
  | none
  | range (low high : Char)
  | rangeAnyCase (low high : Char)
  | digit
  | space
  | word
  | union (left right : CharSet)
  | inter (left right : CharSet)
  | diff (left right : CharSet)
  | symmDiff (left right : CharSet)
  | compl (set : CharSet)
  deriving DecidableEq

namespace CharSet

/-- Membership of a character. -/
def contains : CharSet → Char → Bool
  | none, _ => false
  | range low high, c => low ≤ c && c ≤ high
  | rangeAnyCase low high, c => (Text.caseForms c).any fun form => low ≤ form && form ≤ high
  | digit, c => Text.isDigit c
  | space, c => Text.isSpace c
  | word, c => Text.isWord c
  | union left right, c => left.contains c || right.contains c
  | inter left right, c => left.contains c && right.contains c
  | diff left right, c => left.contains c && !right.contains c
  | symmDiff left right, c => left.contains c != right.contains c
  | compl set, c => !set.contains c

/-- The set of one character. -/
def single (c : Char) : CharSet := range c c

/-- The union of several sets. -/
def unions (sets : List CharSet) : CharSet := sets.foldr union none

/-- Every character but a line feed. -/
def exceptLineFeed : CharSet := compl (single '\n')

/-- Every character. -/
def any : CharSet := compl none

/-- The set with its ranges read in any case. The named classes hold all forms of a letter or
none, and a complement is taken after its operand has been widened. -/
def anyCase : CharSet → CharSet
  | none => none
  | range low high => rangeAnyCase low high
  | rangeAnyCase low high => rangeAnyCase low high
  | digit => digit
  | space => space
  | word => word
  | union left right => union left.anyCase right.anyCase
  | inter left right => inter left.anyCase right.anyCase
  | diff left right => diff left.anyCase right.anyCase
  | symmDiff left right => symmDiff left.anyCase right.anyCase
  | compl set => compl set.anyCase

/-- The ASCII classes that may be named between `[:` and `:]`. -/
def posix? : String → Option CharSet
  | "alnum" => some (unions [range '0' '9', range 'A' 'Z', range 'a' 'z'])
  | "alpha" => some (unions [range 'A' 'Z', range 'a' 'z'])
  | "ascii" => some (range '\x00' '\x7f')
  | "blank" => some (unions [single '\t', single ' '])
  | "cntrl" => some (unions [range '\x00' '\x1f', single '\x7f'])
  | "digit" => some (range '0' '9')
  | "graph" => some (range '!' '~')
  | "lower" => some (range 'a' 'z')
  | "print" => some (range ' ' '~')
  | "punct" => some (unions [range '!' '/', range ':' '@', range '[' '\x60', range '\x7b' '~'])
  | "space" => some (unions [range '\t' '\r', single ' '])
  | "upper" => some (range 'A' 'Z')
  | "word" => some (unions [range '0' '9', range 'A' 'Z', single '_', range 'a' 'z'])
  | "xdigit" => some (unions [range '0' '9', range 'A' 'F', range 'a' 'f'])
  | _ => Option.none

/-- A single character is the only one of its set. -/
@[simp] theorem contains_single (c d : Char) : (single c).contains d = true ↔ d = c := by
  simp only [single, contains, Bool.and_eq_true, decide_eq_true_eq]
  constructor
  · intro ⟨low, high⟩
    exact Char.le_antisymm high low
  · rintro rfl
    exact ⟨Char.le_refl _, Char.le_refl _⟩

end CharSet

end Highlight.Pattern
