import Highlight.Pattern.Expr
import Highlight.Text.Digits

/-! # Pattern tokens

The text of a pattern is cut into tokens before its structure is built. A bracketed class is one token,
and so are an escape, a repetition with its counts, and the opening of a group with its flags or name.
-/

namespace Highlight.Pattern

/-- Why a text is not a pattern. -/
inductive Fault where
  | unclosedGroup
  | unopenedGroup
  | unclosedClass
  | invalidClassItem
  | invalidRange
  | nothingToRepeat
  | invalidCount
  | unknownEscape
  | unfinishedEscape
  | backReference
  | invalidCodePoint
  | lookAround
  | invalidFlags
  | invalidGroupName
  | duplicateGroupName
  deriving DecidableEq

/-- A description of the fault. -/
def Fault.message : Fault → String
  | unclosedGroup => "unclosed group"
  | unopenedGroup => "unopened group"
  | unclosedClass => "unclosed character class"
  | invalidClassItem => "invalid escape in character class"
  | invalidRange => "invalid character class range"
  | nothingToRepeat => "repetition operator missing expression"
  | invalidCount => "invalid repetition count"
  | unknownEscape => "unrecognized escape sequence"
  | unfinishedEscape => "incomplete escape sequence"
  | backReference => "back-references are not supported"
  | invalidCodePoint => "invalid code point"
  | lookAround => "look-around is not supported"
  | invalidFlags => "invalid flags"
  | invalidGroupName => "invalid group name"
  | duplicateGroupName => "duplicate group name"

/-- A switch for the reading of the rest of a group. -/
inductive Flag where
  | anyCase
  | multiLine
  | dotAll
  | swapGreed
  | unicode
  deriving DecidableEq

/-- A token of a pattern. -/
inductive Token where
  | chars (set : CharSet)
  | dot
  | caret
  | dollar
  | anchor (condition : Anchor)
  | openGroup (name : Option (List Char)) (flags : List (Flag × Bool))
  | closeGroup
  | setFlags (flags : List (Flag × Bool))
  | bar
  | repetition (least : Nat) (most : Option Nat) (greedy : Bool)

/-- What an escape denotes. -/
inductive Escape where
  | char (c : Char)
  | chars (set : CharSet)
  | anchor (condition : Anchor)

namespace Escape

/-- The escape as an item of a bracketed class. -/
def toSet : Escape → Except Fault CharSet
  | char c => .ok (.single c)
  | chars set => .ok set
  | anchor _ => .error .invalidClassItem

/-- The escape as an end of a range. -/
def toChar : Escape → Except Fault Char
  | char c => .ok c
  | _ => .error .invalidRange

/-- The escape as a token. -/
def toToken : Escape → Token
  | char c => .chars (.single c)
  | chars set => .chars set
  | anchor condition => .anchor condition

end Escape

/-- The character written by hexadecimal digits, either a fixed number of them or any number between
braces. -/
def codePoint (width : Nat) (rest : List Char) : Except Fault (Escape × List Char) :=
  let (digits, after) :=
    match rest with
    | '\x7b' :: body => (body.takeWhile (· != '\x7d'), (body.dropWhile (· != '\x7d')).tail?)
    | _ => (rest.take width, if width ≤ rest.length then some (rest.drop width) else none)
  match after with
  | none => .error .unfinishedEscape
  | some after =>
    if digits.isEmpty || !digits.all (Text.isDigitOf 16) then .error .invalidCodePoint
    else
      match Text.charOfCode? (Text.numberOf 16 digits) with
      | some c => .ok (.char c, after)
      | none => .error .invalidCodePoint

/-- Whether a character may stand between the braces of a word boundary escape. -/
def isBoundaryLetter (c : Char) : Bool := c.isAlpha || c == '-'

/-- The escape of a word boundary. It may name one side of a word in braces; other braces are a
repetition count. -/
def boundaryEscape (rest : List Char) : Except Fault (Escape × List Char) :=
  match rest with
  | '\x7b' :: body =>
    if body.head?.any isBoundaryLetter then
      match body.dropWhile isBoundaryLetter with
      | '\x7d' :: after =>
        match String.ofList (body.takeWhile isBoundaryLetter) with
        | "start" => .ok (.anchor .wordStart, after)
        | "end" => .ok (.anchor .wordEnd, after)
        | "start-half" => .ok (.anchor .wordStartHalf, after)
        | "end-half" => .ok (.anchor .wordEndHalf, after)
        | _ => .error .unknownEscape
      | _ => .error .unfinishedEscape
    else .ok (.anchor .wordBoundary, rest)
  | _ => .ok (.anchor .wordBoundary, rest)

/-- The escape whose text, after the backslash, begins the given characters. Any ASCII punctuation may be
escaped; letters and digits have a meaning or are refused. -/
def escape : List Char → Except Fault (Escape × List Char)
  | [] => .error .unfinishedEscape
  | c :: rest =>
    match c with
    | 'd' => .ok (.chars .digit, rest)
    | 'D' => .ok (.chars (.compl .digit), rest)
    | 's' => .ok (.chars .space, rest)
    | 'S' => .ok (.chars (.compl .space), rest)
    | 'w' => .ok (.chars .word, rest)
    | 'W' => .ok (.chars (.compl .word), rest)
    | 'x' => codePoint 2 rest
    | 'u' => codePoint 4 rest
    | 'U' => codePoint 8 rest
    | 'a' => .ok (.char '\x07', rest)
    | 'f' => .ok (.char '\x0c', rest)
    | 't' => .ok (.char '\t', rest)
    | 'n' => .ok (.char '\n', rest)
    | 'r' => .ok (.char '\r', rest)
    | 'v' => .ok (.char '\x0b', rest)
    | 'A' => .ok (.anchor .textStart, rest)
    | 'z' => .ok (.anchor .textEnd, rest)
    | 'b' => boundaryEscape rest
    | 'B' => .ok (.anchor .notWordBoundary, rest)
    | '<' => .ok (.anchor .wordStart, rest)
    | '>' => .ok (.anchor .wordEnd, rest)
    | _ =>
      if c.isDigit then .error .backReference
      else if c.isAlpha || 128 ≤ c.toNat then .error .unknownEscape
      else .ok (.char c, rest)

/-- An operation between two parts of a bracketed class. -/
inductive SetOp where
  | inter
  | diff
  | symmDiff

/-- The set on the right of an operator, combined with the operator and the set on its left. -/
def SetOp.complete (pending : Option (SetOp × CharSet)) (right : CharSet) : CharSet :=
  match pending with
  | none => right
  | some (inter, left) => .inter left right
  | some (diff, left) => .diff left right
  | some (symmDiff, left) => .symmDiff left right

/-- The opening of a bracketed class after its bracket: whether it is negated, and the hyphens or the
closing bracket that stand first and so for themselves. -/
def openClass (rest : List Char) : Except Fault (Bool × CharSet × List Char) :=
  let negated := rest.head? == some '^'
  let rest := if negated then rest.tail else rest
  let hyphens := rest.takeWhile (· == '-')
  let after := rest.dropWhile (· == '-')
  match hyphens, after with
  | _, [] => .error .unclosedClass
  | [], ']' :: after =>
    if after.isEmpty then .error .unclosedClass else .ok (negated, .single ']', after)
  | [], after => .ok (negated, .none, after)
  | _, after => .ok (negated, .single '-', after)

/-- A named ASCII class, looked for after an opening bracket inside of a class. -/
def namedClass? (rest : List Char) : Option (CharSet × List Char) :=
  match rest with
  | ':' :: body =>
    let negated := body.head? == some '^'
    let body := if negated then body.tail else body
    match body.dropWhile (· != ':') with
    | ':' :: ']' :: after =>
      (CharSet.posix? (String.ofList (body.takeWhile (· != ':')))).map fun set =>
        (if negated then .compl set else set, after)
    | _ => none
  | _ => none

/-- One character or escape of a bracketed class. -/
def classItem : List Char → Except Fault (Escape × List Char)
  | [] => .error .unclosedClass
  | '\\' :: rest => escape rest
  | c :: rest => .ok (.char c, rest)

/-- The items of a bracketed class up to its closing bracket: the pending operator with its left side,
and the union of the items since then. The first argument bounds the number of items. -/
def classItems : Nat → Bool → Option (SetOp × CharSet) → CharSet → List Char →
    Except Fault (CharSet × List Char)
  | 0, _, _, _, _ => .error .unclosedClass
  | bound + 1, negated, pending, items, rest =>
    match rest with
    | [] => .error .unclosedClass
    | ']' :: after =>
      let set := SetOp.complete pending items
      .ok (if negated then .compl set else set, after)
    | '[' :: after =>
      match namedClass? after with
      | some (set, after) => classItems bound negated pending (.union items set) after
      | none => do
        let (innerNegated, innerItems, after) ← openClass after
        let (set, after) ← classItems bound innerNegated none innerItems after
        classItems bound negated pending (.union items set) after
    | '&' :: '&' :: after =>
      classItems bound negated (some (.inter, SetOp.complete pending items)) .none after
    | '-' :: '-' :: after =>
      classItems bound negated (some (.diff, SetOp.complete pending items)) .none after
    | '~' :: '~' :: after =>
      classItems bound negated (some (.symmDiff, SetOp.complete pending items)) .none after
    | _ => do
      let (first, after) ← classItem rest
      match after with
      | '-' :: tail =>
        if tail.head? == some ']' || tail.head? == some '-' then
          classItems bound negated pending (.union items (← first.toSet)) after
        else
          let (second, after) ← classItem tail
          let low ← first.toChar
          let high ← second.toChar
          if low ≤ high then
            classItems bound negated pending (.union items (.range low high)) after
          else .error .invalidRange
      | _ => classItems bound negated pending (.union items (← first.toSet)) after

/-- A bracketed class after its opening bracket. -/
def bracketedClass (rest : List Char) : Except Fault (Token × List Char) := do
  let (negated, items, after) ← openClass rest
  let (set, after) ← classItems (after.length + 1) negated none items after
  return (.chars set, after)

/-- A decimal count, which may have blanks around it. -/
def count? (rest : List Char) : Option Nat × List Char :=
  let rest := rest.dropWhile Text.isSpace
  let digits := rest.takeWhile Char.isDigit
  let value := Text.numberOf 10 digits
  let after := (rest.dropWhile Char.isDigit).dropWhile Text.isSpace
  (if digits.isEmpty || Nat.pow 2 32 ≤ value then none else some value, after)

/-- A repetition token with its counts; a question mark after the operator makes it lazy. -/
def repetition (least : Nat) (most : Option Nat) (rest : List Char) : Token × List Char :=
  match rest with
  | '?' :: after => (.repetition least most false, after)
  | _ => (.repetition least most true, rest)

/-- A repetition with counts in braces, after its opening brace. -/
def countedRepetition (rest : List Char) : Except Fault (Token × List Char) :=
  match count? rest with
  | (some least, '\x7d' :: after) => .ok (repetition least (some least) after)
  | (some least, ',' :: '\x7d' :: after) => .ok (repetition least none after)
  | (some least, ',' :: after) =>
    match count? after with
    | (some most, '\x7d' :: after) =>
      if least ≤ most then .ok (repetition least (some most) after) else .error .invalidCount
    | _ => .error .invalidCount
  | _ => .error .invalidCount

/-- The flag with the given letter. -/
def Flag.ofLetter? : Char → Option Flag
  | 'i' => some anyCase
  | 'm' => some multiLine
  | 's' => some dotAll
  | 'U' => some swapGreed
  | 'u' => some unicode
  | _ => none

/-- The flags switched by the letters between a question mark and the end of the switches: those before
a hyphen are switched on and those after it off. Unicode matching cannot be switched off. -/
def flagSettings (letters : List Char) : Except Fault (List (Flag × Bool)) := do
  let on := letters.takeWhile (· != '-')
  let off := (letters.dropWhile (· != '-')).drop 1
  if letters.getLast? == some '-' || !letters.Nodup || off.contains 'u' then
    throw .invalidFlags
  (on.map fun c => (c, true)) ++ (off.map fun c => (c, false)) |>.mapM fun (letter, value) =>
    match Flag.ofLetter? letter with
    | some flag => .ok (flag, value)
    | none => .error .invalidFlags

/-- Whether a character may stand in a group name, first or further on. -/
def isNameChar (first : Bool) (c : Char) : Bool :=
  if first then c == '_' || (Text.isWord c && !Text.isDigit c)
  else Text.isWord c || c == '.' || c == '[' || c == ']'

/-- The name of a group and its closing angle bracket. -/
def groupName (rest : List Char) : Except Fault (Token × List Char) :=
  let name := rest.takeWhile (· != '>')
  match name, rest.dropWhile (· != '>') with
  | first :: more, _ :: after =>
    if isNameChar true first && more.all (isNameChar false) then
      .ok (.openGroup (some name) [], after)
    else .error .invalidGroupName
  | _, _ => .error .invalidGroupName

/-- The opening of a group after its parenthesis, or a switch of flags in parentheses. -/
def groupOpening (rest : List Char) : Except Fault (Token × List Char) :=
  match rest with
  | '?' :: '=' :: _ => .error .lookAround
  | '?' :: '!' :: _ => .error .lookAround
  | '?' :: '<' :: '=' :: _ => .error .lookAround
  | '?' :: '<' :: '!' :: _ => .error .lookAround
  | '?' :: 'P' :: '<' :: after => groupName after
  | '?' :: '<' :: after => groupName after
  | '?' :: body =>
    let isLetter := fun c => c != ':' && c != ')'
    match body.dropWhile isLetter with
    | ':' :: after => do return (.openGroup none (← flagSettings (body.takeWhile isLetter)), after)
    | _ :: after =>
      if (body.takeWhile isLetter).isEmpty then .error .nothingToRepeat
      else do return (.setFlags (← flagSettings (body.takeWhile isLetter)), after)
    | [] => .error .unclosedGroup
  | _ => .ok (.openGroup none [], rest)

/-- The token that a character begins, and the text after it. -/
def token (c : Char) (rest : List Char) : Except Fault (Token × List Char) :=
  match c with
  | '(' => groupOpening rest
  | ')' => .ok (.closeGroup, rest)
  | '|' => .ok (.bar, rest)
  | '[' => bracketedClass rest
  | '?' => .ok (repetition 0 (some 1) rest)
  | '*' => .ok (repetition 0 none rest)
  | '+' => .ok (repetition 1 none rest)
  | '\x7b' => countedRepetition rest
  | '.' => .ok (.dot, rest)
  | '^' => .ok (.caret, rest)
  | '$' => .ok (.dollar, rest)
  | '\\' => do
    let (escaped, after) ← escape rest
    return (escaped.toToken, after)
  | _ => .ok (.chars (.single c), rest)

/-- The tokens of a text, of which there are no more than the bound. -/
def tokens : Nat → List Char → Except Fault (List Token)
  | 0, _ => .ok []
  | _ + 1, [] => .ok []
  | bound + 1, c :: rest => do
    let (first, after) ← token c rest
    return first :: (← tokens bound after)

end Highlight.Pattern
