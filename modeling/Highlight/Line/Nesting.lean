import Highlight.Line.Section

/-! # The nesting rule

Every section of a line lies within the line, and of two sections the later one either starts where the
earlier has ended or lies inside it.
-/

namespace Highlight

/-- How a list of sections breaks the nesting rule. Sections are named by their place in the list. -/
inductive SectionFault where
  | outOfBounds (index : Nat)
  | overlap (first second : Nat)
  deriving DecidableEq

/-- A description of the fault. -/
def SectionFault.message : SectionFault → String
  | outOfBounds index => s!"Section {index} lies outside its line"
  | overlap first second => s!"Sections {first} and {second} overlap or are incorrectly sorted"

/-- Whether `second` may follow `first` in a list of sections. -/
def Section.allows (first second : Section) : Bool :=
  first.precedes second || first.encloses second

/-- Checks sections against the bounds of their line and against one another. The sections are numbered
from `index`, and the fault reported is that of the first section that has one. -/
def checkSections (low high : Nat) : Nat → List Section → Except SectionFault Unit
  | _, [] => .ok ()
  | index, first :: rest =>
    if first.offset < low ∨ high < first.stop then
      .error (.outOfBounds index)
    else
      match rest.findIdx? fun second => !first.allows second with
      | some distance => .error (.overlap index (index + 1 + distance))
      | none => checkSections low high (index + 1) rest

/-- Checks the nesting rule for a line. -/
def StyledLine.validate (line : StyledLine) : Except SectionFault Unit :=
  checkSections line.offset line.stop 0 line.sections

end Highlight
