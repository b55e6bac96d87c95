import Highlight.Text.Digits

/-! # Text colors

The terminal's own default color, its sixteen palette entries and 24-bit colors, together with the
names by which a configuration file refers to them.
-/

namespace Highlight

/-- A text color: the terminal's default, an entry of its palette, or a 24-bit value. -/
inductive Color where
  | terminal
  | black
  | red
  | green
  | yellow
  | blue
  | magenta
  | cyan
  | white
  | brightBlack
  | brightRed
  | brightGreen
  | brightYellow
  | brightBlue
  | brightMagenta
  | brightCyan
  | brightWhite
  | rgb (red green blue : UInt8)
  deriving DecidableEq

namespace Color

/-- One channel of a hexadecimal triple, written as two digits or as a plus sign and one digit. -/
def channel? (high low : Char) : Option UInt8 := do
  let lowValue ← Text.hexDigit? low
  if high = '+' then
    return UInt8.ofNat lowValue
  let highValue ← Text.hexDigit? high
  return UInt8.ofNat (16 * highValue + lowValue)

/-- The named colors, spelled in lower case without separators. -/
def palette : List (String × Color) :=
  [("default", terminal), ("black", black), ("red", red), ("green", green), ("yellow", yellow),
    ("blue", blue), ("magenta", magenta), ("cyan", cyan), ("white", white),
    ("brightblack", brightBlack), ("gray", brightBlack), ("grey", brightBlack),
    ("brightred", brightRed), ("brightgreen", brightGreen), ("brightyellow", brightYellow),
    ("brightblue", brightBlue), ("brightmagenta", brightMagenta), ("brightcyan", brightCyan),
    ("brightwhite", brightWhite)]

/-- A color name reduced to its palette spelling: hyphens and underscores are dropped and ASCII
letters are put in lower case. -/
def canonicalName (name : List Char) : String :=
  String.ofList ((name.filter fun c => c != '-' && c != '_').map Char.toLower)

/-- The color written as a name of the palette or as a triple of channels after a hash sign. -/
def ofName? (name : String) : Option Color :=
  match name.toList with
  | '#' :: digits =>
    match digits with
    | [r₁, r₀, g₁, g₀, b₁, b₀] => do
      return rgb (← channel? r₁ r₀) (← channel? g₁ g₀) (← channel? b₁ b₀)
    | _ => none
  | letters => palette.lookup (canonicalName letters)

end Color

end Highlight
