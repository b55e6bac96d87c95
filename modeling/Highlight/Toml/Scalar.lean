import Highlight.Text.Digits
import Highlight.Toml.Value

/-! # Scalars and keys of TOML

Readers take what they read from the front of a text, or fail. They cover the parts of the language that
do not contain other values: blanks, comments, strings, numbers, dates and keys.
-/

namespace Highlight.Toml

/-- A reader of the front of a text. -/
abbrev Reader := StateT (List Char) Option

namespace Reader

/-- Reads one character that satisfies a test. -/
def charWhere (test : Char → Bool) : Reader Char
  | c :: rest => if test c then some (c, rest) else none
  | [] => none

/-- Reads the given character. -/
def char (expected : Char) : Reader Char := charWhere (· == expected)

/-- Reads the given characters. -/
def literal (expected : List Char) : Reader (List Char) := fun text =>
  if expected.isPrefixOf text then some (expected, text.drop expected.length) else none

/-- Reads characters as long as they satisfy a test. -/
def charsWhere (test : Char → Bool) : Reader (List Char) := fun text =>
  some (text.takeWhile test, text.dropWhile test)

/-- Reads exactly as many characters, all of which satisfy a test. -/
def exactly (count : Nat) (test : Char → Bool) : Reader (List Char) := fun text =>
  let front := text.take count
  if front.length = count ∧ front.all test then some (front, text.drop count) else none

/-- Reads what the reader does and gives the characters it takes up. -/
def written (reader : Reader Unit) : Reader String := fun text => do
  let ((), rest) ← reader text
  return (String.ofList (text.take (text.length - rest.length)), rest)

/-- Reads as often as the reader succeeds and takes up something, at most as often as the bound. -/
def repeatedWithin (reader : Reader α) : Nat → Reader (List α)
  | 0 => fun text => some ([], text)
  | bound + 1 => fun text =>
    match reader text with
    | none => some ([], text)
    | some (value, rest) =>
      if rest.length < text.length then
        (repeatedWithin reader bound rest).map fun (values, rest) => (value :: values, rest)
      else
        some ([], text)

/-- Reads as often as the reader succeeds and takes up something. -/
def repeated (reader : Reader α) : Reader (List α) := fun text =>
  repeatedWithin reader text.length text

/-- Succeeds at the end of the text. -/
def atEnd : Reader Unit
  | [] => some ((), [])
  | _ :: _ => none

end Reader

open Reader

/-- Whether a character is a blank. -/
def isBlank (c : Char) : Bool := c == ' ' || c == '\t'

/-- Whether a character may stand in a comment or a string: any but the control characters, of which only
the tab is allowed. -/
def isPlain (c : Char) : Bool := c == '\t' || (' ' ≤ c && c != '\x7f')

/-- Reads blanks. -/
def blanks : Reader Unit := do discard (charsWhere isBlank)

/-- Reads a line end. -/
def newline : Reader Unit := do discard (optional (char '\r')); discard (char '\n')

/-- Reads a comment. -/
def comment : Reader Unit := do discard (char '#'); discard (charsWhere isPlain)

/-- Reads what may stand behind an expression on its line, and the line end or the end of the text. -/
def lineRest : Reader Unit := do
  blanks
  discard (optional comment)
  newline <|> atEnd

/-- Reads blanks, comments and line ends between the items of an array. -/
def gap : Reader Unit := do
  discard (repeated ((do discard (charWhere isBlank)) <|> (do discard (optional comment); newline)))

/-- Reads the escape that follows a backslash. -/
def escapedChar : Reader Char := do
  match ← charWhere fun _ => true with
  | 'b' => return '\x08'
  | 'f' => return '\x0c'
  | 'n' => return '\n'
  | 'r' => return '\r'
  | 't' => return '\t'
  | '\\' => return '\\'
  | '\x22' => return '\x22'
  | 'u' => Text.charOfCode? <| Text.numberOf 16 (← exactly 4 (Text.isDigitOf 16))
  | 'U' => Text.charOfCode? <| Text.numberOf 16 (← exactly 8 (Text.isDigitOf 16))
  | _ => failure

/-- Reads one character of a string between quotes. -/
def basicChar : Reader Char :=
  charWhere (fun c => isPlain c && c != '\x22' && c != '\\') <|>
    do discard (char '\\'); escapedChar

/-- Reads a string between quotes on one line. -/
def basicString : Reader (List Char) := do
  discard (char '\x22')
  let text ← repeated basicChar
  discard (char '\x22')
  return text

/-- Reads a string between apostrophes on one line. -/
def literalString : Reader (List Char) := do
  discard (char '\x27')
  let text ← charsWhere fun c => isPlain c && c != '\x27'
  discard (char '\x27')
  return text

/-- Reads one or two delimiter characters that do not end a string over several lines. -/
def fewDelimiters (delimiter : Char) : Reader (List Char) := fun text =>
  let run := text.takeWhile (· == delimiter)
  if run.length = 1 ∨ run.length = 2 then some (run, text.drop run.length) else none

/-- Reads the end of a string over several lines, before whose three delimiters one or two more may
belong to the string. -/
def multilineEnd (delimiter : Char) : Reader (List Char) := fun text =>
  let run := text.takeWhile (· == delimiter)
  if 3 ≤ run.length ∧ run.length ≤ 5 then some (run.drop 3, text.drop run.length) else none

/-- Reads a line end as part of a string. -/
def lineFeed : Reader (List Char) := do newline; return ['\n']

/-- Reads a backslash at the end of a line, which drops all blanks and line ends that follow. -/
def lineContinuation : Reader (List Char) := do
  discard (char '\\')
  blanks
  newline
  discard (repeated ((do discard (charWhere isBlank)) <|> newline))
  return []

/-- Reads a string between three quotes. -/
def multilineBasicString : Reader (List Char) := do
  discard (literal ['\x22', '\x22', '\x22'])
  discard (optional newline)
  let parts ← repeated
    (lineContinuation <|> (do return [← basicChar]) <|> lineFeed <|> fewDelimiters '\x22')
  return parts.flatten ++ (← multilineEnd '\x22')

/-- Reads a string between three apostrophes. -/
def multilineLiteralString : Reader (List Char) := do
  discard (literal ['\x27', '\x27', '\x27'])
  discard (optional newline)
  let parts ← repeated
    ((do return [← charWhere fun c => isPlain c && c != '\x27']) <|> lineFeed <|>
      fewDelimiters '\x27')
  return parts.flatten ++ (← multilineEnd '\x27')

/-- Reads a string. -/
def stringText : Reader String := do
  let text ← multilineBasicString <|> basicString <|> multilineLiteralString <|> literalString
  return String.ofList text

/-- The digits at the front of a text, between which single underscores may stand, without the
underscores, and the text behind them. -/
def digitsOf (test : Char → Bool) : List Char → List Char × List Char
  | [] => ([], [])
  | '_' :: d :: rest =>
    if test d then
      let (digits, rest) := digitsOf test rest
      (d :: digits, rest)
    else ([], '_' :: d :: rest)
  | c :: rest =>
    if test c then
      let (digits, rest) := digitsOf test rest
      (c :: digits, rest)
    else ([], c :: rest)

/-- Reads digits, between which single underscores may stand. -/
def digits (test : Char → Bool) : Reader (List Char) := do
  let first ← charWhere test
  let more ← fun text => some (digitsOf test text)
  return first :: more

/-- Reads a sign; without one the number is not negative. -/
def isNegative : Reader Bool := do
  return (← optional (charWhere fun c => c == '+' || c == '-')) == some '-'

/-- Reads the digits of a decimal integer, which has no leading zeros. -/
def decimalDigits : Reader (List Char) := do
  match ← charWhere Char.isDigit with
  | '0' => return ['0']
  | first => return first :: (← fun text => some (digitsOf Char.isDigit text))

/-- The integers that have 64 bits. -/
def int64? (value : Int) : Option Int :=
  if -9223372036854775808 ≤ value ∧ value ≤ 9223372036854775807 then some value else none

/-- Reads an integer in hexadecimal, octal or binary form. -/
def basedInteger (mark : Char) (base : Nat) : Reader Value := do
  discard (literal ['0', mark])
  let text ← digits (Text.isDigitOf base)
  return .integer (← int64? (Text.numberOf base text))

/-- Reads an integer. -/
def integer : Reader Value :=
  basedInteger 'x' 16 <|> basedInteger 'o' 8 <|> basedInteger 'b' 2 <|> do
    let negative ← isNegative
    let magnitude := Text.numberOf 10 (← decimalDigits)
    return .integer (← int64? (if negative then -magnitude else magnitude))

/-- Whether the decimal number with the given digits and power of ten is too great for a number of double
precision, so that it would be rounded to infinity. -/
def overflowsDouble (digits : List Char) (exponent : Int) : Bool :=
  let significant := digits.dropWhile (· == '0')
  let magnitude : Int := significant.length + exponent
  let bound := Nat.pow 2 1024 - Nat.pow 2 970
  if significant.isEmpty || magnitude < 309 then false
  else if 310 < magnitude then true
  else
    let value := Text.numberOf 10 significant
    bound * Nat.pow 10 (-exponent).toNat ≤ value * Nat.pow 10 exponent.toNat

/-- Reads the exponent of a floating-point number. -/
def exponent : Reader Int := do
  discard (charWhere fun c => c == 'e' || c == 'E')
  let negative ← isNegative
  let magnitude := Text.numberOf 10 (← digits Char.isDigit)
  return if negative then -magnitude else magnitude

/-- Reads the digits behind a decimal point. -/
def fraction : Reader (List Char) := do discard (char '.'); digits Char.isDigit

/-- Reads a floating-point number that has an exponent, a fraction or both. A positive one must not be
infinite. -/
def decimalFloat : Reader Unit := do
  let negative ← isNegative
  let whole ← decimalDigits
  let (decimals, power) ←
    (do return ([], ← exponent)) <|>
      (do return (← fraction, (← optional exponent).getD 0))
  if !negative && overflowsDouble (whole ++ decimals) (power - decimals.length) then failure

/-- Reads infinity or the value that is no number. -/
def specialFloat : Reader Unit := do
  discard isNegative
  discard (literal ['i', 'n', 'f'] <|> literal ['n', 'a', 'n'])

/-- Reads a number of the given count of digits within bounds. -/
def boundedNumber (count least most : Nat) : Reader Nat := do
  let value := Text.numberOf 10 (← exactly count Char.isDigit)
  if value < least ∨ most < value then failure
  return value

/-- The number of days of a month. -/
def daysInMonth (year month : Nat) : Nat :=
  if month = 2 then
    if year % 4 = 0 ∧ (year % 100 ≠ 0 ∨ year % 400 = 0) then 29 else 28
  else if month ∈ [4, 6, 9, 11] then 30
  else 31

/-- Reads a date. -/
def date : Reader Unit := do
  let year ← boundedNumber 4 0 9999
  discard (char '-')
  let month ← boundedNumber 2 1 12
  discard (char '-')
  discard (boundedNumber 2 1 (daysInMonth year month))

/-- Reads a time of day, in which a leap second is allowed. -/
def timeOfDay : Reader Unit := do
  discard (boundedNumber 2 0 23)
  discard (char ':')
  discard (boundedNumber 2 0 59)
  discard (char ':')
  discard (boundedNumber 2 0 60)
  discard (optional (do
    discard (char '.')
    discard (charWhere Char.isDigit)
    discard (charsWhere Char.isDigit)))

/-- Reads the offset of a time from universal time. -/
def timeOffset : Reader Unit :=
  (do discard (charWhere fun c => c == 'Z' || c == 'z')) <|> do
    discard (charWhere fun c => c == '+' || c == '-')
    discard (boundedNumber 2 0 23)
    discard (char ':')
    discard (boundedNumber 2 0 59)

/-- Reads a date, which may be followed by a time, or a time alone. -/
def moment : Reader Unit :=
  (do
    date
    discard (optional (do
      discard (charWhere fun c => c == 'T' || c == 't' || c == ' ')
      timeOfDay
      discard (optional timeOffset)))) <|> timeOfDay

/-- Reads a boolean. -/
def boolean : Reader Value :=
  (do discard (literal ['t', 'r', 'u', 'e']); return .boolean true) <|>
    (do discard (literal ['f', 'a', 'l', 's', 'e']); return .boolean false)

/-- Reads a value that contains no other values. -/
def scalar : Reader Value :=
  (do return .string (← stringText)) <|> (do return .moment (← written moment)) <|>
    (do return .float (← written (decimalFloat <|> specialFloat))) <|> integer <|> boolean

/-- Whether a character may stand in a key without quotes. -/
def isKeyChar (c : Char) : Bool := c.isAlphanum || c == '_' || c == '-'

/-- Reads a key that has no dots outside of quotes. -/
def simpleKey : Reader String := do
  let text ← basicString <|> literalString <|>
    do return (← charWhere isKeyChar) :: (← charsWhere isKeyChar)
  return String.ofList text

/-- Reads a key with blanks around it. -/
def paddedKey : Reader String := do
  blanks
  let key ← simpleKey
  blanks
  return key

/-- The number of levels that values and keys may be nested. -/
def nestingLimit : Nat := 79

/-- Reads a key whose parts are separated by dots. -/
def dottedKey : Reader (List String) := do
  let first ← paddedKey
  let more ← repeated do discard (char '.'); paddedKey
  if nestingLimit ≤ more.length then failure
  return first :: more

end Highlight.Toml
