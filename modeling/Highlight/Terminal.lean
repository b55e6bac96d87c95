import Highlight.Line.Runs
import Highlight.Text.Bytes

/-! # Terminal output

Styled text for a terminal that understands escape sequences of the form `ESC [ parameters m`. Each run is
preceded by the sequences of its attributes and followed by a reset.
-/

namespace Highlight.Terminal

/-- The escape sequence with the given parameters. -/
def sequence (parameters : List Char) : List Char := '\x1b' :: '[' :: (parameters ++ ['m'])

/-- A number in decimal digits. -/
def decimal (value : Nat) : List Char := Nat.toDigits 10 value

/-- The place of a named color in the terminal's palette. -/
def paletteIndex? : Color → Option Nat
  | .black => some 0
  | .red => some 1
  | .green => some 2
  | .yellow => some 3
  | .blue => some 4
  | .magenta => some 5
  | .cyan => some 6
  | .white => some 7
  | .brightBlack => some 8
  | .brightRed => some 9
  | .brightGreen => some 10
  | .brightYellow => some 11
  | .brightBlue => some 12
  | .brightMagenta => some 13
  | .brightCyan => some 14
  | .brightWhite => some 15
  | .terminal | .rgb .. => none

/-- The parameters that choose a color. The first digit is 3 for the foreground and 4 for the
background. -/
def colorParameters (layer : Char) (color : Color) : List Char :=
  match color, paletteIndex? color with
  | .rgb red green blue, _ =>
    [layer, '8', ';', '2', ';'] ++ decimal red.toNat ++ ';' :: decimal green.toNat ++
      ';' :: decimal blue.toNat
  | _, some index => [layer, '8', ';', '5', ';'] ++ decimal index
  | _, none => [layer, '9']

/-- The sequence that chooses a color. Without colors its parameters are left out. -/
def colorSequence (colors : Bool) (layer : Char) (color : Color) : List Char :=
  sequence (if colors then colorParameters layer color else [])

/-- The sequence of an attribute that is switched on, and nothing for one that is not. -/
def switch (parameter : Char) (on : Bool) : List Char := if on then sequence [parameter] else []

/-- The sequences that switch the attributes of a style on. -/
def styleSequences (colors : Bool) (style : Style) : List Char :=
  (style.foreground.map (colorSequence colors '3')).getD [] ++
    (style.background.map (colorSequence colors '4')).getD [] ++
    switch '1' (style.weight.any Weight.isBold) ++ switch '3' (style.italic == some true) ++
    switch '4' (style.underline == some true) ++ switch '9' (style.strikethrough == some true)

/-- The sequence that returns to the default state. -/
def reset : List Char := sequence ['0']

/-- The text of a line from byte `cursor` on with its runs, whose offsets count from `origin`. -/
def showRuns (colors : Bool) (text : List Char) (origin : Nat) :
    Nat → List StyledRun → List Char
  | cursor, [] => ((Text.splitAtByte? cursor text).map Prod.snd).getD []
  | cursor, run :: rest =>
    let start := run.offset - origin
    let stop := start + run.length
    (Text.slice? text cursor start).getD [] ++ styleSequences colors run.style ++
      (Text.slice? text start stop).getD [] ++ reset ++ reset ++
      showRuns colors text origin stop rest

/-- The text of a line in its styles. -/
def showLine (colors : Bool) (text : String) (line : StyledLine) : List Char :=
  showRuns colors text.toList line.offset 0 line.runs

end Highlight.Terminal
