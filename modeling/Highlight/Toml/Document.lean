import Highlight.Toml.Scalar

/-! # TOML documents

A document is read expression by expression into a tree of tables. A table remembers how it came about,
since that decides what may still be added to it: a table with a header of its own cannot be opened again,
dotted keys can add only to tables made by dotted keys, and a value written in one piece cannot be extended
at all.
-/

namespace Highlight.Toml

/-- A place in the tree of tables: a value, a table, or a list of tables that share a header in double
brackets. A table is implicit if no header of its own has been read, and dotted if it was made by a dotted
key. -/
inductive Node where
  | value (value : Value)
  | table (implicit dotted : Bool) (entries : List (String × Node))
  | tables (elements : List (List (String × Node)))

/-- The entries of a table under construction. -/
abbrev Entries := List (String × Node)

/-- The entries as a table. -/
def Table.sorted (entries : Table) : Table :=
  entries.mergeSort fun left right => decide (left.1 ≤ right.1)

mutual

/-- The value of a place in the tree. -/
def Node.toValue : Node → Value
  | .value value => value
  | .table _ _ entries => .table (Table.sorted (entriesToTable entries))
  | .tables elements => .array (elementsToValues elements)

/-- The entries with their values. -/
def entriesToTable : List (String × Node) → Table
  | [] => []
  | (key, node) :: rest => (key, node.toValue) :: entriesToTable rest

/-- The tables of a list. -/
def elementsToValues : List (List (String × Node)) → List Value
  | [] => []
  | entries :: rest => .table (Table.sorted (entriesToTable entries)) :: elementsToValues rest

end

namespace Entries

/-- The entries with a key given another node. -/
def replace (entries : Entries) (key : String) (node : Node) : Entries :=
  entries.map fun entry => if entry.1 == key then (key, node) else entry

/-- Changes the table at the end of a path, making the tables on the way that are missing. Of a list of
tables the last one is meant. The change is told whether its table was made by a dotted key, as `dotted`
says for the table at the start. Under `byDots` the path comes from a dotted key and must not pass through
a table with a header. -/
def changeAt (byDots : Bool) (change : Bool → Entries → Option Entries) :
    List String → Bool → Entries → Option Entries
  | [], dotted, entries => change dotted entries
  | key :: path, _, entries =>
    match entries.lookup key with
    | none => do
      let inner ← changeAt byDots change path byDots []
      return (key, .table true byDots inner) :: entries
    | some (.value _) => none
    | some (.tables elements) => do
      let last ← changeAt byDots change path false (elements.getLast?.getD [])
      return replace entries key (.tables (elements.dropLast ++ [last]))
    | some (.table implicit dotted inner) =>
      if byDots && !implicit then none
      else do
        let inner ← changeAt byDots change path dotted inner
        return replace entries key (.table implicit dotted inner)

/-- Adds a value under a dotted key, given as the path before its last part and that part. -/
def addValue (path : List String) (key : String) (value : Value) (entries : Entries) :
    Option Entries :=
  changeAt true
    (fun dotted entries =>
      if dotted == path.isEmpty || (entries.lookup key).isSome then none
      else some ((key, .value value) :: entries))
    path false entries

/-- Opens a table under a header. -/
def addTable (path : List String) (key : String) (entries : Entries) : Option Entries :=
  changeAt false
    (fun _ entries =>
      match entries.lookup key with
      | none => some ((key, .table false false []) :: entries)
      | some (.table true false inner) => some (replace entries key (.table false false inner))
      | some _ => none)
    path false entries

/-- Adds a table to the list under a header in double brackets. -/
def addElement (path : List String) (key : String) (entries : Entries) : Option Entries :=
  changeAt false
    (fun _ entries =>
      match entries.lookup key with
      | none => some ((key, .tables [[]]) :: entries)
      | some (.tables elements) => some (replace entries key (.tables (elements ++ [[]])))
      | some _ => none)
    path false entries

end Entries

open Reader

/-- Splits a dotted key into its path and its last part. -/
def splitKey (parts : List String) : List String × String :=
  (parts.dropLast, (parts.getLast?).getD "")

mutual

/-- Reads a value. The argument says how many levels of arrays and inline tables it may have. -/
def value : Nat → Reader Value
  | 0 => scalar
  | levels + 1 => scalar <|> array levels <|> inlineTable levels

/-- Reads an array whose items may have the given number of levels. -/
def array (levels : Nat) : Reader Value := do
  discard (char '[')
  let item : Reader Value := do
    gap
    let item ← value levels
    gap
    return item
  let first ← optional item
  let items ←
    match first with
    | none => pure []
    | some first => do
      let more ← repeated do discard (char ','); item
      discard (optional (char ','))
      pure (first :: more)
  gap
  discard (char ']')
  return .array items

/-- Reads a table on one line whose values may have the given number of levels. -/
def inlineTable (levels : Nat) : Reader Value := do
  discard (char '\x7b')
  let pair : Reader (List String × Value) := do
    let key ← dottedKey
    discard (char '=')
    blanks
    let value ← value levels
    blanks
    return (key, value)
  let first ← optional pair
  let pairs ←
    match first with
    | none => pure []
    | some first => do
      let more ← repeated do discard (char ','); pair
      pure (first :: more)
  blanks
  discard (char '\x7d')
  let entries ← pairs.foldlM (fun (entries : Entries) (parts, value) =>
    let (path, key) := splitKey parts
    entries.addValue path key value) []
  return .table (Table.sorted (entriesToTable entries))

end

/-- A document while it is read: the tree and the path of the table that keys are added to. -/
structure Draft where
  entries : Entries := []
  header : List String := []

/-- Reads a header and opens its table. -/
def header (draft : Draft) : Reader Draft := do
  discard (char '[')
  match ← optional (char '[') with
  | some _ =>
    let parts ← dottedKey
    discard (literal [']', ']'])
    lineRest
    let (path, key) := splitKey parts
    return ⟨← draft.entries.addElement path key, parts⟩
  | none =>
    let parts ← dottedKey
    discard (char ']')
    lineRest
    let (path, key) := splitKey parts
    return ⟨← draft.entries.addTable path key, parts⟩

/-- Reads a key with its value and adds them to the table of the last header. -/
def keyValue (draft : Draft) : Reader Draft := do
  let parts ← dottedKey
  discard (char '=')
  blanks
  let value ← value nestingLimit
  lineRest
  let (path, key) := splitKey parts
  let entries ← draft.entries.changeAt false (fun _ table => table.addValue path key value)
    draft.header false
  return { draft with entries := entries }

/-- Reads one expression of a document. -/
def expression (draft : Draft) : Reader Draft := do
  blanks
  (do discard (optional comment); newline; return draft) <|>
    (do comment; atEnd; return draft) <|> header draft <|> keyValue draft

/-- Reads the expressions of a document, of which there are no more than the bound. -/
def expressions : Nat → Draft → Reader Draft
  | 0, draft => return draft
  | bound + 1, draft =>
    (do blanks; atEnd; return draft) <|> do expressions bound (← expression draft)

/-- The table that a text denotes, if it is a document. -/
def read? (text : String) : Option Table := do
  let characters := text.toList
  let characters := if characters.head? == some '\ufeff' then characters.tail else characters
  let (draft, rest) ← expressions (characters.length + 1) {} characters
  if rest.isEmpty then some (Table.sorted (entriesToTable draft.entries)) else none

end Highlight.Toml
