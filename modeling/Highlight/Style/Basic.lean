import Highlight.Style.Color

/-! # Styles

A style is a set of optional attributes. An attribute that is not set is inherited from whatever
encloses the text, so styles are combined by laying one over another.
-/

namespace Highlight

/-- A font weight on the usual scale from 100 to 900. -/
structure Weight where
  value : Nat
  deriving DecidableEq

namespace Weight

/-- The weight of ordinary text. -/
def normal : Weight := ⟨400⟩

/-- The weight that the word "bold" stands for. -/
def bold : Weight := ⟨700⟩

/-- Whether a terminal shows the weight as bold. -/
def isBold (weight : Weight) : Bool := 600 ≤ weight.value

end Weight

/-- Optional attributes of a run of text. -/
structure Style where
  foreground : Option Color := none
  background : Option Color := none
  weight : Option Weight := none
  italic : Option Bool := none
  underline : Option Bool := none
  strikethrough : Option Bool := none
  deriving DecidableEq

namespace Style

/-- The style that sets nothing. -/
def plain : Style := {}

/-- The style that sets only the foreground. -/
def colored (color : Color) : Style := { foreground := some color }

/-- Whether no attribute is set. -/
def isPlain (style : Style) : Bool := style = plain

/-- The attributes of `top`, and those of `base` where `top` sets none. -/
def overlay (base top : Style) : Style where
  foreground := top.foreground.or base.foreground
  background := top.background.or base.background
  weight := top.weight.or base.weight
  italic := top.italic.or base.italic
  underline := top.underline.or base.underline
  strikethrough := top.strikethrough.or base.strikethrough

/-- Styles laid over one another, the first at the bottom. -/
def layered (styles : List Style) : Style := styles.foldl overlay plain

end Style

end Highlight
