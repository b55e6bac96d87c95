import Highlight.Terminal
import Mathlib.Data.List.Basic

/-! # What a terminal shows

A terminal reads characters one after another. Sequences of the form `ESC [ parameters m` change the look
of the characters that follow, and everything else is shown. The sequences written for a style give text
the look of that style (`Highlight.Terminal.read_styleSequences`), and the reset gives the default look
again.
-/

namespace Highlight.Terminal

/-- How a character looks. -/
structure Look where
  foreground : Color := .terminal
  background : Color := .terminal
  bold : Bool := false
  italic : Bool := false
  underline : Bool := false
  strikethrough : Bool := false
  deriving DecidableEq

/-- The look of text in a style. Attributes that are not set are the terminal's own, and a weight is shown
as bold from 600 on. -/
def Look.ofStyle (style : Style) : Look where
  foreground := style.foreground.getD .terminal
  background := style.background.getD .terminal
  bold := style.weight.any fun weight => 600 ≤ weight.value
  italic := style.italic == some true
  underline := style.underline == some true
  strikethrough := style.strikethrough == some true

/-- A character on the screen. -/
structure Cell where
  char : Char
  look : Look
  deriving DecidableEq

/-- The colors that a terminal has under the numbers from 0 on. -/
def palette : List Color :=
  [.black, .red, .green, .yellow, .blue, .magenta, .cyan, .white, .brightBlack, .brightRed,
    .brightGreen, .brightYellow, .brightBlue, .brightMagenta, .brightCyan, .brightWhite]

namespace Look

/-- The look with another color of the foreground or of the background. -/
def paint (foreground : Bool) (color : Color) (look : Look) : Look :=
  if foreground then { look with foreground := color } else { look with background := color }

/-- The look after a parameter that stands by itself. -/
def single (parameter : Nat) (look : Look) : Look :=
  if parameter = 0 then {}
  else if parameter = 1 then { look with bold := true }
  else if parameter = 3 then { look with italic := true }
  else if parameter = 4 then { look with underline := true }
  else if parameter = 9 then { look with strikethrough := true }
  else if parameter = 39 then look.paint true .terminal
  else if parameter = 49 then look.paint false .terminal
  else look

/-- The look after the parameters of a sequence. A color is chosen by 38 or 48, followed by 5 and its
number in the palette or by 2 and its three channels. -/
def select : List Nat → Look → Look
  | [], look => look
  | parameter :: rest, look =>
    if parameter = 38 ∨ parameter = 48 then
      match rest with
      | 5 :: index :: rest =>
        select rest (palette[index]?.elim look (look.paint (parameter = 38)))
      | 2 :: red :: green :: blue :: rest =>
        let color := Color.rgb (.ofNat red) (.ofNat green) (.ofNat blue)
        select rest (look.paint (parameter = 38) color)
      | _ => look
    else select rest (look.single parameter)

end Look

/-- The parameters in a text, the first of which has begun with the given value. -/
def parametersOf (value : Nat) : List Char → List Nat
  | [] => [value]
  | c :: rest =>
    if c = ';' then value :: parametersOf 0 rest
    else parametersOf (Nat.ofDigitChars 10 [c] value) rest

/-- Where a terminal stands in its input: outside of sequences, behind an escape character, or inside of a
sequence, whose parameters so far are given in reverse. -/
inductive Mode where
  | text
  | escape
  | parameters (seen : List Char)

/-- The characters that were read of a sequence. -/
def Mode.pending : Mode → List Char
  | text => []
  | escape => ['\x1b']
  | parameters seen => '\x1b' :: '[' :: seen.reverse

/-- Characters that all look the same. -/
def plainCells (look : Look) (text : List Char) : List Cell := text.map fun c => ⟨c, look⟩

/-- What a terminal shows for its input. What turns out to be no sequence is shown as it stands. -/
def read : Mode → Look → List Char → List Cell
  | mode, look, [] => plainCells look mode.pending
  | .text, look, c :: rest =>
    if c = '\x1b' then read .escape look rest else ⟨c, look⟩ :: read .text look rest
  | .escape, look, c :: rest =>
    if c = '[' then read (.parameters []) look rest
    else plainCells look ['\x1b', c] ++ read .text look rest
  | .parameters seen, look, c :: rest =>
    if c = 'm' then read .text (look.select (parametersOf 0 seen.reverse)) rest
    else if c.isDigit || c = ';' then read (.parameters (c :: seen)) look rest
    else plainCells look ((Mode.parameters seen).pending ++ [c]) ++ read .text look rest

/-- What a terminal shows that starts in its default state. -/
def display (output : List Char) : List Cell := read .text {} output

/-! ## Text and sequences -/

/-- Text without an escape is shown in the look that it is read with. -/
theorem read_plain {text : List Char} (plain : '\x1b' ∉ text) (look : Look) (rest : List Char) :
    read .text look (text ++ rest) = plainCells look text ++ read .text look rest := by
  induction text with
  | nil => rfl
  | cons c text ih =>
      obtain ⟨different, later⟩ := List.ne_and_not_mem_of_not_mem_cons plain
      rw [List.cons_append, read, if_neg different.symm, ih later]
      rfl

/-- Whether a text can stand between the bracket and the end of a sequence. -/
def IsParameters (text : List Char) : Prop := ∀ c ∈ text, c.isDigit = true ∨ c = ';'

@[simp] theorem isParameters_nil : IsParameters [] := List.forall_mem_nil _

@[simp] theorem isParameters_cons_iff {c : Char} {text : List Char} :
    IsParameters (c :: text) ↔ (c.isDigit = true ∨ c = ';') ∧ IsParameters text :=
  List.forall_mem_cons

@[simp] theorem isParameters_append_iff {first second : List Char} :
    IsParameters (first ++ second) ↔ IsParameters first ∧ IsParameters second :=
  List.forall_mem_append

/-- Parameters are read up to their end and select a look. -/
theorem read_parameters {text : List Char} (parameters : IsParameters text) (seen : List Char)
    (look : Look) (rest : List Char) :
    read (.parameters seen) look (text ++ 'm' :: rest) =
      read .text (look.select (parametersOf 0 (seen.reverse ++ text))) rest := by
  induction text generalizing seen with
  | nil => simp [read]
  | cons c text ih =>
      obtain ⟨first, later⟩ := isParameters_cons_iff.mp parameters
      have different : c ≠ 'm' := by
        rintro rfl
        simp at first
      have continues : (c.isDigit || c = ';') = true := by simpa using first
      rw [List.cons_append, read, if_neg different, if_pos continues, ih later]
      simp

theorem read_sequence {text : List Char} (parameters : IsParameters text) (look : Look)
    (rest : List Char) :
    read .text look (sequence text ++ rest) = read .text (look.select (parametersOf 0 text)) rest := by
  have inside := read_parameters parameters [] look rest
  simpa [sequence, read] using inside

/-! ## Parameters -/

theorem isDigit_of_mem_decimal {value : Nat} {c : Char} (member : c ∈ decimal value) :
    c.isDigit = true :=
  Nat.isDigit_of_mem_toDigits (by decide) (Nat.le_refl 10) member

@[simp] theorem isParameters_decimal (value : Nat) : IsParameters (decimal value) :=
  fun _ member => .inl (isDigit_of_mem_decimal member)

/-- Digits are read as the number that they write. -/
theorem parametersOf_digits {digits : List Char} (numeric : ∀ c ∈ digits, c.isDigit = true)
    (value : Nat) (rest : List Char) :
    parametersOf value (digits ++ rest) =
      parametersOf (Nat.ofDigitChars 10 digits value) rest := by
  induction digits generalizing value with
  | nil => rfl
  | cons c digits ih =>
      obtain ⟨first, later⟩ := List.forall_mem_cons.mp numeric
      have different : c ≠ ';' := by
        rintro rfl
        simp at first
      rw [List.cons_append, parametersOf, if_neg different, ih later]
      rfl

theorem parametersOf_decimal (value : Nat) (rest : List Char) :
    parametersOf 0 (decimal value ++ rest) = parametersOf value rest := by
  rw [parametersOf_digits fun _ member => isDigit_of_mem_decimal member, decimal,
    Nat.ofDigitChars_ten_toDigits]

theorem parametersOf_decimal_last (value : Nat) : parametersOf 0 (decimal value) = [value] := by
  have ends := parametersOf_decimal value []
  rwa [List.append_nil] at ends

theorem parametersOf_decimal_separator (value : Nat) (rest : List Char) :
    parametersOf 0 (decimal value ++ ';' :: rest) = value :: parametersOf 0 rest := by
  rw [parametersOf_decimal, parametersOf, if_pos rfl]

/-! ## Colors -/

/-- The digit that begins the parameters of a layer. -/
def layerDigit (foreground : Bool) : Char := if foreground then '3' else '4'

theorem getElem?_palette {color : Color} {index : Nat} (listed : paletteIndex? color = some index) :
    palette[index]? = some color := by
  cases color <;> cases listed <;> rfl

/-- A number of the palette selects its color. -/
theorem select_index (foreground : Bool) {index : Nat} {color : Color}
    (listed : palette[index]? = some color) (look : Look) :
    look.select (parametersOf 0 ([layerDigit foreground, '8', ';', '5', ';'] ++ decimal index)) =
      look.paint foreground color := by
  have parameters : parametersOf 0
      ([layerDigit foreground, '8', ';', '5', ';'] ++ decimal index) =
        [if foreground then 38 else 48, 5, index] := by
    have last := parametersOf_decimal_last index
    cases foreground <;> exact congrArg (fun more => _ :: 5 :: more) last
  rw [parameters]
  cases foreground <;> simp [Look.select, listed]

/-- Three channels select the color that they make. -/
theorem select_channels (foreground : Bool) (red green blue : UInt8) (look : Look) :
    look.select (parametersOf 0 ([layerDigit foreground, '8', ';', '2', ';'] ++
      (decimal red.toNat ++ ';' :: (decimal green.toNat ++ ';' :: decimal blue.toNat)))) =
      look.paint foreground (.rgb red green blue) := by
  have parameters : parametersOf 0 ([layerDigit foreground, '8', ';', '2', ';'] ++
      (decimal red.toNat ++ ';' :: (decimal green.toNat ++ ';' :: decimal blue.toNat))) =
        [if foreground then 38 else 48, 2, red.toNat, green.toNat, blue.toNat] := by
    have channels : parametersOf 0
        (decimal red.toNat ++ ';' :: (decimal green.toNat ++ ';' :: decimal blue.toNat)) =
          [red.toNat, green.toNat, blue.toNat] := by
      rw [parametersOf_decimal_separator, parametersOf_decimal_separator, parametersOf_decimal_last]
    cases foreground <;> exact congrArg (fun more => _ :: 2 :: more) channels
  rw [parameters]
  cases foreground <;> simp [Look.select]

/-- The parameters that are written for a color choose that color. -/
theorem select_colorParameters (foreground : Bool) (color : Color) (look : Look) :
    look.select (parametersOf 0 (colorParameters (layerDigit foreground) color)) =
      look.paint foreground color := by
  cases color with
  | rgb red green blue =>
      have channels := select_channels foreground red green blue look
      simpa [colorParameters] using channels
  | terminal => cases foreground <;> rfl
  | _ => exact select_index foreground (getElem?_palette rfl) look

theorem isParameters_colorParameters (foreground : Bool) (color : Color) :
    IsParameters (colorParameters (layerDigit foreground) color) := by
  have layered : (layerDigit foreground).isDigit = true := by cases foreground <;> rfl
  cases color <;> simp [colorParameters, paletteIndex?, layered]

/-! ## Styles -/

/-- The sequence for a color, where there is one, paints the layer with it. -/
theorem read_colorSequence (foreground : Bool) (color : Option Color) (look : Look)
    (rest : List Char) :
    read .text look ((color.map (colorSequence true (layerDigit foreground))).getD [] ++ rest) =
      read .text (color.elim look (look.paint foreground)) rest := by
  cases color with
  | none => rfl
  | some color =>
      have chosen := read_sequence (isParameters_colorParameters foreground color) look rest
      rwa [select_colorParameters] at chosen

/-- An attribute that is switched on is on, and one that is not stays as it was. -/
theorem read_switch {parameter : Char} (numeric : parameter.isDigit = true) (on : Bool)
    {look lit : Look} (lights : look.select (parametersOf 0 [parameter]) = lit) (rest : List Char) :
    read .text look (switch parameter on ++ rest) = read .text (if on then lit else look) rest := by
  cases on with
  | false => rfl
  | true =>
      have parameters : IsParameters [parameter] := List.forall_mem_singleton.mpr (.inl numeric)
      rw [if_pos rfl, ← lights]
      exact read_sequence parameters look rest

/-- **Styles.** The sequences of a style give the text that follows them the look of that style. -/
theorem read_styleSequences (style : Style) (rest : List Char) :
    read .text {} (styleSequences true style ++ rest) = read .text (.ofStyle style) rest := by
  obtain ⟨foreground, background, weight, italic, underline, strikethrough⟩ := style
  have first := read_colorSequence true foreground {}
  have second := read_colorSequence false background
  simp only [layerDigit, if_true, Bool.false_eq_true, if_false] at first second
  have heavy : weight.any Weight.isBold = weight.any fun weight => 600 ≤ weight.value := rfl
  simp only [styleSequences, List.append_assoc, first, second]
  rw [read_switch rfl _ rfl, read_switch rfl _ rfl, read_switch rfl _ rfl, read_switch rfl _ rfl]
  congr 1
  unfold Look.ofStyle
  rw [heavy]
  generalize weight.any (fun weight => 600 ≤ weight.value) = bold
  cases bold <;> cases italic == some true <;> cases underline == some true <;>
    cases strikethrough == some true <;> cases foreground <;> cases background <;> rfl

theorem read_reset (look : Look) (rest : List Char) :
    read .text look (reset ++ rest) = read .text {} rest :=
  read_sequence (by simp) look rest

end Highlight.Terminal
