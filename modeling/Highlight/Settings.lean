import Highlight.Style.Theme
import Highlight.Text.Lowercase
import Highlight.Toml.Document

/-! # Settings

A settings file may switch highlighting off and change the styles of a theme. An entry for a style is laid
over the style that the name has by default, so that it changes only the attributes it names. Keys that
are not known are ignored.
-/

namespace Highlight

/-- Why a file cannot be read. -/
inductive FileFault where
  | notFound
  | isDirectory
  | notText
  deriving DecidableEq

/-- A description of the fault. -/
def FileFault.message : FileFault → String
  | notFound => "I/O error: No such file or directory (os error 2)"
  | isDirectory => "I/O error: Is a directory (os error 21)"
  | notText => "I/O error: stream did not contain valid UTF-8"

/-- Whether highlighting is wanted, and the styles to use. -/
structure Settings where
  enabled : Bool := true
  theme : Theme := .standard

namespace Settings

/-- What a setting has to be. -/
inductive Expectation where
  | boolean
  | table
  | color
  | weight
  deriving DecidableEq

/-- The expectation in words. -/
def Expectation.text : Expectation → String
  | boolean => "a boolean"
  | table => "a table"
  | color => "a color"
  | weight => "\"normal\", \"bold\" or a number from 1 to 1000"

/-- Why a text does not hold settings. -/
inductive Fault where
  | malformed
  | unexpected (key : String) (expectation : Expectation)
  deriving DecidableEq

/-- A description of the fault. -/
def Fault.message : Fault → String
  | malformed => "Config error: not a TOML document"
  | unexpected key expectation => "Config error: `" ++ key ++ "` must be " ++ expectation.text

/-- The color that a value names. -/
def color? (value : Toml.Value) : Option Color := value.string?.bind Color.ofName?

/-- The weight that a value gives, by name or by number. -/
def weight? : Toml.Value → Option Weight
  | .string text =>
    match Text.lowercase text with
    | "normal" => some .normal
    | "bold" => some .bold
    | _ => none
  | .integer value => if 1 ≤ value ∧ value ≤ 1000 then some ⟨value.toNat⟩ else none
  | _ => none

/-- The setting under a key of a table, if there is one, read as expected. `path` is the full name of the
key. -/
def field (table : Toml.Table) (key path : String) (read? : Toml.Value → Option α)
    (expectation : Expectation) : Except Fault (Option α) :=
  match table.lookup key with
  | none => .ok none
  | some value =>
    match read? value with
    | some setting => .ok (some setting)
    | none => .error (.unexpected path expectation)

/-- The attributes that the entry for a style names. -/
def styleOf (name : String) (entry : Toml.Table) : Except Fault Style := do
  let path := fun key => "styles." ++ name ++ "." ++ key
  return {
    foreground := ← field entry "foreground" (path "foreground") color? .color
    background := ← field entry "background" (path "background") color? .color
    weight := ← field entry "weight" (path "weight") weight? .weight
    italic := ← field entry "italic" (path "italic") Toml.Value.boolean? .boolean
    underline := ← field entry "underline" (path "underline") Toml.Value.boolean? .boolean
    strikethrough :=
      ← field entry "strikethrough" (path "strikethrough") Toml.Value.boolean? .boolean }

/-- Lays the entry for a style over the style that the theme has under its name. -/
def addStyle (theme : Theme) (entry : String × Toml.Value) : Except Fault Theme := do
  let (name, value) := entry
  match value.table? with
  | none => throw (.unexpected ("styles." ++ name) .table)
  | some attributes =>
    let style ← styleOf name attributes
    return theme.set name (((theme.get? name).getD .plain).overlay style)

/-- The settings in a table. -/
def ofTable (table : Toml.Table) : Except Fault Settings := do
  let enabled ← field table "enabled" "enabled" Toml.Value.boolean? .boolean
  let styles ← field table "styles" "styles" Toml.Value.table? .table
  let theme ← (styles.getD []).foldlM addStyle .standard
  return { enabled := enabled.getD true, theme := theme }

/-- Reads settings. -/
def parse (text : String) : Except Fault Settings :=
  match Toml.read? text with
  | none => .error .malformed
  | some table => ofTable table

/-- The settings in the file of a home directory, if there is such a directory. Where the file cannot be
used, the default settings are. -/
def load (file : Option (Except FileFault String)) : Settings :=
  match file with
  | some (.ok text) => (parse text).toOption.getD {}
  | _ => {}

end Settings

end Highlight
