import Highlight.Pattern.Match
import Highlight.Pattern.Token

/-! # Reading patterns

Tokens are folded into an expression with a stack of open groups. Each group keeps the branches that a
bar has finished, the items of the branch that is being read, and the flags to return to when it closes.
-/

namespace Highlight.Pattern

/-- How characters, anchors, dots and repetitions are read. -/
structure Flags where
  anyCase : Bool := false
  multiLine : Bool := false
  dotAll : Bool := false
  swapGreed : Bool := false

/-- The flags after some have been switched. -/
def Flags.update (flags : Flags) (settings : List (Flag × Bool)) : Flags :=
  settings.foldl (fun flags (flag, value) =>
    match flag with
    | .anyCase => { flags with anyCase := value }
    | .multiLine => { flags with multiLine := value }
    | .dotAll => { flags with dotAll := value }
    | .swapGreed => { flags with swapGreed := value }
    | .unicode => flags) flags

/-- An open group. Branches and items are kept latest first, and an item that only switches flags is
`none`. -/
structure Group where
  flagsOutside : Flags
  branches : List Expr := []
  items : List (Option Expr) := []

namespace Group

/-- The branch that is being read. -/
def branch (group : Group) : Expr := .sequence (group.items.reverse.filterMap id)

/-- The expression of the whole group. -/
def expr (group : Group) : Expr := .choice (group.branch :: group.branches).reverse

/-- The group with one more item. -/
def push (group : Group) (item : Option Expr) : Group :=
  { group with items := item :: group.items }

/-- The group with a bar after the branch that is being read. -/
def finishBranch (group : Group) : Group :=
  { group with branches := group.branch :: group.branches, items := [] }

end Group

/-- A reader between two tokens. -/
structure Reader where
  flags : Flags := {}
  group : Group := { flagsOutside := {} }
  enclosing : List Group := []
  names : List (List Char) := []

namespace Reader

/-- The reader after an item of the current branch. -/
def push (reader : Reader) (item : Option Expr) : Reader :=
  { reader with group := reader.group.push item }

/-- The reader after a group has been opened. -/
def openGroup (reader : Reader) (settings : List (Flag × Bool)) : Reader :=
  { reader with
    flags := reader.flags.update settings
    group := { flagsOutside := reader.flags }
    enclosing := reader.group :: reader.enclosing }

/-- The reader after a token. -/
def step (reader : Reader) : Token → Except Fault Reader
  | .chars set =>
    .ok (reader.push (some (.chars (if reader.flags.anyCase then set.anyCase else set))))
  | .dot => .ok (reader.push (some (.chars (if reader.flags.dotAll then .any else .exceptLineFeed))))
  | .caret =>
    .ok (reader.push (some (.anchor (if reader.flags.multiLine then .lineStart else .textStart))))
  | .dollar =>
    .ok (reader.push (some (.anchor (if reader.flags.multiLine then .lineEnd else .textEnd))))
  | .anchor condition => .ok (reader.push (some (.anchor condition)))
  | .openGroup none settings => .ok (reader.openGroup settings)
  | .openGroup (some name) settings =>
    if name ∈ reader.names then .error .duplicateGroupName
    else .ok { reader.openGroup settings with names := name :: reader.names }
  | .closeGroup =>
    match reader.enclosing with
    | [] => .error .unopenedGroup
    | outer :: enclosing =>
      .ok { reader with
        flags := reader.group.flagsOutside
        group := outer.push (some reader.group.expr)
        enclosing := enclosing }
  | .setFlags settings =>
    .ok { reader.push none with flags := reader.flags.update settings }
  | .bar => .ok { reader with group := reader.group.finishBranch }
  | .repetition least most greedy =>
    match reader.group.items with
    | some body :: items =>
      let repeated := .repeated body least most (greedy != reader.flags.swapGreed)
      .ok { reader with group := { reader.group with items := some repeated :: items } }
    | _ => .error .nothingToRepeat

end Reader

/-- The expression written by the characters. -/
def parse (text : List Char) : Except Fault Expr := do
  let reader ← (← tokens text.length text).foldlM Reader.step {}
  if reader.enclosing.isEmpty then return reader.group.expr else throw .unclosedGroup

end Highlight.Pattern
