import Highlight.Toml.Document
import Mathlib.Data.List.Nodup
import Mathlib.Data.String.Basic

/-! # The tables of a document

However a document is written, no table of what it denotes has a key twice, and the entries of every table
stand in ascending order of their keys (`Highlight.Toml.ordered_of_read?`). While the document is read, the
tables under construction have distinct keys in any order (`Highlight.Toml.Entries.Distinct`); they are put
in order when all is read.
-/

namespace Highlight.Toml

/-- Whether every table in a value lists distinct keys in ascending order. -/
inductive Value.Ordered : Value → Prop where
  | string (text : String) : Ordered (.string text)
  | integer (value : Int) : Ordered (.integer value)
  | float (written : String) : Ordered (.float written)
  | boolean (value : Bool) : Ordered (.boolean value)
  | moment (written : String) : Ordered (.moment written)
  | array {items : List Value} (each : ∀ item ∈ items, Ordered item) : Ordered (.array items)
  | table {entries : Table} (ascending : entries.Pairwise fun first second => first.1 < second.1)
      (each : ∀ entry ∈ entries, Ordered entry.2) : Ordered (.table entries)

/-- Whether every table at a place of the tree has distinct keys. -/
inductive Node.Distinct : Node → Prop where
  | value {value : Value} (ordered : value.Ordered) : Distinct (.value value)
  | table {implicit dotted : Bool} {entries : Entries} (keys : (entries.map Prod.fst).Nodup)
      (each : ∀ entry ∈ entries, Distinct entry.2) : Distinct (.table implicit dotted entries)
  | tables {elements : List Entries}
      (keys : ∀ entries ∈ elements, (entries.map Prod.fst).Nodup)
      (each : ∀ entries ∈ elements, ∀ entry ∈ entries, Distinct entry.2) :
      Distinct (.tables elements)

/-- Whether a table under construction, and every table in it, has distinct keys. -/
structure Entries.Distinct (entries : Entries) : Prop where
  keys : (entries.map Prod.fst).Nodup
  each : ∀ entry ∈ entries, entry.2.Distinct

/-! ## Putting tables in order -/

theorem Table.sorted_perm (entries : Table) : (Table.sorted entries).Perm entries :=
  List.mergeSort_perm entries _

/-- Sorting a table with distinct keys puts them in ascending order. -/
theorem Table.pairwise_sorted {entries : Table} (keys : (entries.map Prod.fst).Nodup) :
    (Table.sorted entries).Pairwise fun first second => first.1 < second.1 := by
  have inOrder : (Table.sorted entries).Pairwise fun first second => first.1 ≤ second.1 := by
    have sorted : (Table.sorted entries).Pairwise fun first second => decide (first.1 ≤ second.1) :=
      List.pairwise_mergeSort
        (fun _ _ _ near far => by simp only [decide_eq_true_eq] at *; exact near.trans far)
        (fun first second => by simpa using le_total first.1 second.1) entries
    simpa only [decide_eq_true_eq] using sorted
  have apart : ((Table.sorted entries).map Prod.fst).Nodup :=
    ((Table.sorted_perm entries).map Prod.fst).nodup_iff.mpr keys
  rw [List.Nodup, List.pairwise_map] at apart
  exact (inOrder.and apart).imp fun both => lt_of_le_of_ne both.1 both.2

theorem map_fst_entriesToTable (entries : Entries) :
    (entriesToTable entries).map Prod.fst = entries.map Prod.fst := by
  induction entries with
  | nil => simp [entriesToTable]
  | cons entry rest ih => simp [entriesToTable, ih]

/-- The values of a finished table are those of the entries, finished. -/
theorem mem_entriesToTable {entries : Entries} {pair : String × Value}
    (member : pair ∈ entriesToTable entries) :
    ∃ entry ∈ entries, pair = (entry.1, entry.2.toValue) := by
  induction entries with
  | nil => simp [entriesToTable] at member
  | cons entry rest ih =>
      rcases List.mem_cons.mp (entriesToTable.eq_2 .. ▸ member) with rfl | later
      · exact ⟨entry, List.mem_cons_self, rfl⟩
      · obtain ⟨other, listed, same⟩ := ih later
        exact ⟨other, List.mem_cons_of_mem _ listed, same⟩

/-- The values of a finished array of tables are its elements, finished and sorted. -/
theorem mem_elementsToValues {elements : List Entries} {value : Value}
    (member : value ∈ elementsToValues elements) :
    ∃ entries ∈ elements, value = .table (Table.sorted (entriesToTable entries)) := by
  induction elements with
  | nil => simp [elementsToValues] at member
  | cons entries rest ih =>
      rcases List.mem_cons.mp (elementsToValues.eq_2 .. ▸ member) with rfl | later
      · exact ⟨entries, List.mem_cons_self, rfl⟩
      · obtain ⟨other, listed, same⟩ := ih later
        exact ⟨other, List.mem_cons_of_mem _ listed, same⟩

/-- A table with distinct keys and ordered values is ordered once it is sorted. -/
theorem ordered_sorted {entries : Entries} (keys : (entries.map Prod.fst).Nodup)
    (each : ∀ entry ∈ entries, entry.2.toValue.Ordered) :
    (Value.table (Table.sorted (entriesToTable entries))).Ordered := by
  refine .table (Table.pairwise_sorted (map_fst_entriesToTable entries ▸ keys)) fun pair member => ?_
  obtain ⟨entry, listed, rfl⟩ :=
    mem_entriesToTable ((Table.sorted_perm _).mem_iff.mp member)
  exact each entry listed

/-- What is under construction with distinct keys is ordered when it is finished. -/
theorem Node.Distinct.ordered {node : Node} (distinct : node.Distinct) : node.toValue.Ordered := by
  induction distinct with
  | value ordered => simpa only [Node.toValue] using ordered
  | table keys _ ih => simpa only [Node.toValue] using ordered_sorted keys ih
  | tables keys _ ih =>
      rw [Node.toValue]
      refine .array fun item member => ?_
      obtain ⟨entries, listed, rfl⟩ := mem_elementsToValues member
      exact ordered_sorted (keys entries listed) (ih entries listed)

theorem Entries.Distinct.ordered {entries : Entries} (distinct : entries.Distinct) :
    (Value.table (Table.sorted (entriesToTable entries))).Ordered :=
  ordered_sorted distinct.keys fun entry listed => (distinct.each entry listed).ordered

/-! ## Adding to tables -/

namespace Entries

variable {entries inner result : Entries} {key : String} {node : Node}

theorem distinct_nil : Distinct [] := ⟨List.nodup_nil, nofun⟩

theorem Distinct.asNode (distinct : entries.Distinct) (implicit dotted : Bool) :
    (Node.table implicit dotted entries).Distinct :=
  .table distinct.keys distinct.each

theorem mem_of_lookup (found : entries.lookup key = some node) : (key, node) ∈ entries := by
  obtain ⟨before, after, rfl, _⟩ := List.lookup_eq_some_iff.mp found
  simp

theorem Distinct.lookup (distinct : entries.Distinct) (found : entries.lookup key = some node) :
    node.Distinct :=
  distinct.each _ (mem_of_lookup found)

/-- An entry may be added under a key that is not there. -/
theorem Distinct.cons (distinct : entries.Distinct) (fresh : entries.lookup key = none)
    (added : node.Distinct) : Distinct ((key, node) :: entries) where
  keys := by
    refine List.nodup_cons.mpr ⟨fun listed => ?_, distinct.keys⟩
    obtain ⟨entry, member, same⟩ := List.mem_map.mp listed
    have apart := List.lookup_eq_none_iff.mp fresh entry member
    simp [same] at apart
  each := List.forall_mem_cons.mpr ⟨added, distinct.each⟩

/-- The entry of a key may be replaced. -/
theorem Distinct.replace (distinct : entries.Distinct) (key : String) (added : node.Distinct) :
    (entries.replace key node).Distinct where
  keys := by
    have same : (entries.replace key node).map Prod.fst = entries.map Prod.fst := by
      rw [Entries.replace, List.map_map]
      refine List.map_congr_left fun entry _ => ?_
      by_cases here : entry.1 = key <;> simp [here]
    rw [same]
    exact distinct.keys
  each := by
    intro changed member
    obtain ⟨entry, listed, rfl⟩ := List.mem_map.mp member
    by_cases here : entry.1 = key
    · simpa [here] using added
    · simpa [here] using distinct.each entry listed

/-- Whether a change of a table keeps keys distinct. -/
def KeepsDistinct (change : Bool → Entries → Option Entries) : Prop :=
  ∀ dotted entries result, entries.Distinct → change dotted entries = some result → result.Distinct

/-- The last of several tables, or an empty one where there is none. -/
theorem distinct_getLast? {elements : List Entries} (distinct : (Node.tables elements).Distinct) :
    Distinct (elements.getLast?.getD []) := by
  cases distinct with
  | tables keys each =>
      cases last : elements.getLast? with
      | none => exact distinct_nil
      | some entries =>
          have listed := List.mem_of_getLast? last
          exact ⟨keys entries listed, each entries listed⟩

theorem distinct_tables {elements : List Entries} (each : ∀ entries ∈ elements, entries.Distinct) :
    (Node.tables elements).Distinct :=
  .tables (fun entries listed => (each entries listed).keys)
    fun entries listed => (each entries listed).each

/-- A change made at the end of a path keeps keys distinct all along it, by induction on the path. -/
theorem KeepsDistinct.changeAt {change : Bool → Entries → Option Entries}
    (keeps : KeepsDistinct change) (byDots : Bool) (path : List String) :
    KeepsDistinct (Entries.changeAt byDots change path) := by
  induction path with
  | nil => exact keeps
  | cons key path ih =>
      intro dotted entries result distinct changed
      rw [Entries.changeAt] at changed
      split at changed
      · rename_i fresh
        obtain ⟨inner, made, same⟩ := Option.bind_eq_some_iff.mp changed
        cases same
        exact distinct.cons fresh ((ih _ _ _ distinct_nil made).asNode true byDots)
      · cases changed
      · rename_i elements found
        obtain ⟨last, made, same⟩ := Option.bind_eq_some_iff.mp changed
        cases same
        have known := distinct.lookup found
        have added := ih _ _ _ (distinct_getLast? known) made
        refine distinct.replace key (distinct_tables fun entries listed => ?_)
        rcases List.mem_append.mp listed with earlier | final
        · cases known with
          | tables keys each =>
              have inside := List.dropLast_subset elements earlier
              exact ⟨keys entries inside, each entries inside⟩
        · rwa [List.mem_singleton.mp final]
      · rename_i implicit dotted inner found
        split at changed
        · cases changed
        · obtain ⟨further, made, same⟩ := Option.bind_eq_some_iff.mp changed
          cases same
          cases distinct.lookup found with
          | table keys each =>
              exact distinct.replace key ((ih _ _ _ ⟨keys, each⟩ made).asNode implicit dotted)

/-- A value is added only where its key is not there. -/
theorem addValue_distinct {path : List String} {value : Value} (ordered : value.Ordered)
    (distinct : entries.Distinct) (added : entries.addValue path key value = some result) :
    result.Distinct := by
  refine KeepsDistinct.changeAt (fun dotted table changed distinct made => ?_) true path false entries
    result distinct added
  split at made
  · cases made
  · rename_i fresh
    cases made
    simp only [Bool.or_eq_true, not_or, Bool.not_eq_true, Option.isSome_eq_false_iff,
      Option.isNone_iff_eq_none] at fresh
    exact distinct.cons fresh.2 (.value ordered)

/-- A table is added where its key is not there, or the one that is there becomes explicit. -/
theorem addTable_distinct {path : List String} (distinct : entries.Distinct)
    (added : entries.addTable path key = some result) : result.Distinct := by
  refine KeepsDistinct.changeAt (fun dotted table changed distinct made => ?_) false path false
    entries result distinct added
  split at made
  · rename_i fresh
    cases made
    exact distinct.cons fresh (distinct_nil.asNode false false)
  · rename_i inner found
    cases made
    cases distinct.lookup found with
    | table keys each => exact distinct.replace key (.table keys each)
  · cases made

/-- An element is added to the array of its key, and begins with no entries. -/
theorem addElement_distinct {path : List String} (distinct : entries.Distinct)
    (added : entries.addElement path key = some result) : result.Distinct := by
  have alone : (Node.tables [[]]).Distinct := distinct_tables (by simpa using distinct_nil)
  refine KeepsDistinct.changeAt (fun dotted table changed distinct made => ?_) false path false
    entries result distinct added
  split at made
  · rename_i fresh
    cases made
    exact distinct.cons fresh alone
  · rename_i elements found
    cases made
    cases distinct.lookup found with
    | tables keys each =>
        refine distinct.replace key (distinct_tables fun entries listed => ?_)
        rcases List.mem_append.mp listed with earlier | final
        · exact ⟨keys entries earlier, each entries earlier⟩
        · rw [List.mem_singleton.mp final]
          exact distinct_nil
  · cases made

end Entries

/-! ## What readers give -/

namespace Reader

section Results

variable {α β : Type} {first second : Reader α} {text : List Char}

theorem orElse_of_some {outcome : α × List Char} (found : first text = some outcome) :
    (first <|> second) text = some outcome := by
  show (first text <|> second text) = some outcome
  rw [found]
  rfl

theorem orElse_of_none (missing : first text = none) : (first <|> second) text = second text := by
  show (first text <|> second text) = second text
  rw [missing]
  rfl

theorem bind_of_some {reader : Reader α} {further : α → Reader β} {value : α} {rest : List Char}
    (found : reader text = some (value, rest)) : (reader >>= further) text = further value rest := by
  show (reader text).bind (fun outcome => further outcome.1 outcome.2) = further value rest
  rw [found]
  rfl

theorem liftM_of_some {result : Option α} {value : α} (found : result = some value) :
    (liftM result : Reader α) text = some (value, text) := by
  rw [found]
  rfl

end Results

variable {α β : Type} {holds : α → Prop} {later : β → Prop}

/-- Whether all that a reader gives has a property. -/
def Gives (holds : α → Prop) (reader : Reader α) : Prop :=
  ∀ text value rest, reader text = some (value, rest) → holds value

theorem Gives.pure {value : α} (known : holds value) : Gives holds (Pure.pure value) := by
  intro text other rest read
  cases read
  exact known

/-- A reader that reads nothing gives what is known. -/
theorem Gives.lift {result : Option α} (known : ∀ value, result = some value → holds value) :
    Gives holds (liftM result) := by
  intro text value rest read
  cases result with
  | none => cases read
  | some other =>
      cases read
      exact known _ rfl

theorem Gives.bind {reader : Reader α} {further : α → Reader β} (first : Gives holds reader)
    (next : ∀ value, holds value → Gives later (further value)) : Gives later (reader >>= further) := by
  intro text value rest read
  obtain ⟨⟨middle, between⟩, near, far⟩ := Option.bind_eq_some_iff.mp read
  exact next middle (first _ _ _ near) _ _ _ far

/-- What is read first need not be known. -/
theorem Gives.after {reader : Reader α} {further : α → Reader β}
    (next : ∀ value, Gives later (further value)) : Gives later (reader >>= further) := by
  have unknown : Gives (fun _ => True) reader := fun _ _ _ _ => trivial
  exact unknown.bind fun value _ => next value

theorem Gives.orElse {first second : Reader α} (left : Gives holds first)
    (right : Gives holds second) : Gives holds (first <|> second) := by
  intro text value rest read
  cases found : first text with
  | none => exact right _ _ _ (orElse_of_none found ▸ read)
  | some outcome => exact left _ _ _ (found.trans ((orElse_of_some found).symm.trans read))

/-- What may be read has the property if it is there. -/
theorem Gives.optional {reader : Reader α} (gives : Gives holds reader) :
    Gives (fun found => ∀ value, found = some value → holds value) (optional reader) := by
  refine Gives.orElse ?_ (Gives.pure nofun)
  intro text found rest read
  obtain ⟨⟨value, after⟩, near, same⟩ := Option.bind_eq_some_iff.mp read
  cases same
  rintro _ ⟨⟩
  exact gives _ _ _ near

/-- All that is read one after the other has the property, by induction on the characters that are left. -/
theorem Gives.repeated {reader : Reader α} (gives : Gives holds reader) :
    Gives (fun values => ∀ value ∈ values, holds value) (repeated reader) := by
  suffices within : ∀ bound,
      Gives (fun values => ∀ value ∈ values, holds value) (repeatedWithin reader bound) by
    exact fun text => within text.length text
  intro bound
  induction bound with
  | zero =>
      intro text values rest read
      cases read
      exact List.forall_mem_nil _
  | succ bound ih =>
      intro text values rest read
      rw [repeatedWithin] at read
      beta_reduce at read
      split at read
      · cases read
        exact List.forall_mem_nil _
      · rename_i value after near
        split at read
        · obtain ⟨⟨more, last⟩, far, same⟩ := Option.map_eq_some_iff.mp read
          cases same
          exact List.forall_mem_cons.mpr ⟨gives _ _ _ near, ih _ _ _ far⟩
        · cases read
          exact List.forall_mem_nil _

end Reader

open Reader

theorem gives_basedInteger (mark : Char) (base : Nat) :
    Gives Value.Ordered (basedInteger mark base) :=
  .after fun _ => .after fun _ => .after fun value => .pure (.integer value)

theorem gives_integer : Gives Value.Ordered integer := by
  refine .orElse (gives_basedInteger _ _) (.orElse (gives_basedInteger _ _)
    (.orElse (gives_basedInteger _ _) ?_))
  exact .after fun negative => .after fun digits => .after fun value => .pure (.integer value)

theorem gives_scalar : Gives Value.Ordered scalar := by
  refine .orElse ?_ (.orElse ?_ (.orElse ?_ (.orElse gives_integer ?_)))
  · exact .after fun text => .pure (.string _)
  · exact .after fun written => .pure (.moment written)
  · exact .after fun written => .pure (.float written)
  · exact .orElse (.after fun _ => .pure (.boolean true)) (.after fun _ => .pure (.boolean false))

/-- An array holds values that are read one after another. -/
theorem gives_array {levels : Nat} (inner : Gives Value.Ordered (value levels)) :
    Gives Value.Ordered (array levels) := by
  rw [array]
  have item : Gives Value.Ordered (do
      gap
      let item ← value levels
      gap
      return item) :=
    .after fun _ => inner.bind fun item ordered => .after fun _ => .pure ordered
  have closed : ∀ items : List Value, (∀ item ∈ items, item.Ordered) → Gives Value.Ordered (do
      gap
      discard (char ']')
      return .array items) :=
    fun items each => .after fun _ => .after fun _ => .pure (.array each)
  refine .after fun _ => item.optional.bind fun first known => ?_
  cases first with
  | none => exact closed [] (List.forall_mem_nil _)
  | some first =>
      refine (Gives.repeated (.after fun _ => item)).bind fun more each => .after fun _ => ?_
      exact closed (first :: more) (List.forall_mem_cons.mpr ⟨known first rfl, each⟩)

/-- Adding the values of an inline table one after another keeps keys distinct. -/
theorem gives_foldlM_addValue {pairs : List (List String × Value)}
    (each : ∀ pair ∈ pairs, pair.2.Ordered) {entries : Entries} (distinct : entries.Distinct) :
    Gives Entries.Distinct (pairs.foldlM (fun (entries : Entries) (parts, value) =>
      let (path, key) := splitKey parts
      liftM (entries.addValue path key value)) entries) := by
  induction pairs generalizing entries with
  | nil => exact .pure distinct
  | cons pair rest ih =>
      rw [List.foldlM_cons]
      obtain ⟨first, later⟩ := List.forall_mem_cons.mp each
      refine Gives.bind (.lift fun next added => Entries.addValue_distinct first distinct added)
        fun next still => ?_
      exact ih later still

/-- An inline table is built of its pairs, and sorted when it is finished. -/
theorem gives_inlineTable {levels : Nat} (inner : Gives Value.Ordered (value levels)) :
    Gives Value.Ordered (inlineTable levels) := by
  rw [inlineTable]
  have pair : Gives (fun pair : List String × Value => pair.2.Ordered) (do
      let key ← dottedKey
      discard (char '=')
      blanks
      let value ← value levels
      blanks
      return (key, value)) :=
    .after fun _ => .after fun _ => .after fun _ => inner.bind fun value ordered =>
      .after fun _ => .pure ordered
  have closed : ∀ pairs : List (List String × Value), (∀ pair ∈ pairs, pair.2.Ordered) →
      Gives Value.Ordered (do
        blanks
        discard (char '\x7d')
        let entries ← pairs.foldlM (fun (entries : Entries) (parts, value) =>
          let (path, key) := splitKey parts
          liftM (entries.addValue path key value)) []
        return .table (Table.sorted (entriesToTable entries))) :=
    fun pairs each => .after fun _ => .after fun _ =>
      (gives_foldlM_addValue each Entries.distinct_nil).bind fun entries distinct =>
        .pure distinct.ordered
  refine .after fun _ => pair.optional.bind fun first known => ?_
  cases first with
  | none => exact closed [] (List.forall_mem_nil _)
  | some first =>
      refine (Gives.repeated (.after fun _ => pair)).bind fun more each => ?_
      exact closed (first :: more) (List.forall_mem_cons.mpr ⟨known first rfl, each⟩)

/-- Values are ordered at every level of nesting. -/
theorem gives_value (levels : Nat) : Gives Value.Ordered (value levels) := by
  induction levels with
  | zero =>
      rw [value]
      exact gives_scalar
  | succ levels ih =>
      rw [value]
      exact .orElse gives_scalar (.orElse (gives_array ih) (gives_inlineTable ih))

/-! ## Documents -/

section Documents

variable {draft : Draft} (distinct : draft.entries.Distinct)
include distinct

/-- A header keeps the keys of the draft distinct. -/
theorem gives_header : Gives (fun next : Draft => next.entries.Distinct) (header draft) := by
  refine .after fun _ => .after fun double => ?_
  cases double with
  | some _ =>
      refine .after fun parts => .after fun _ => .after fun _ => ?_
      refine Gives.bind (.lift fun entries added => Entries.addElement_distinct distinct added)
        fun entries still => .pure still
  | none =>
      refine .after fun parts => .after fun _ => .after fun _ => ?_
      refine Gives.bind (.lift fun entries added => Entries.addTable_distinct distinct added)
        fun entries still => .pure still

theorem gives_keyValue : Gives (fun next : Draft => next.entries.Distinct) (keyValue draft) := by
  refine .after fun parts => .after fun _ => .after fun _ => ?_
  refine (gives_value nestingLimit).bind fun value ordered => .after fun _ => ?_
  refine Gives.bind (.lift fun entries added => ?_) fun entries still => .pure still
  exact Entries.KeepsDistinct.changeAt
    (fun _ table changed known made => Entries.addValue_distinct ordered known made) false _ _ _ _
    distinct added

theorem gives_expression : Gives (fun next : Draft => next.entries.Distinct) (expression draft) := by
  refine .after fun _ => .orElse ?_ (.orElse ?_ (.orElse (gives_header distinct)
    (gives_keyValue distinct)))
  · exact .after fun _ => .after fun _ => .pure distinct
  · exact .after fun _ => .after fun _ => .pure distinct

end Documents

theorem gives_expressions {bound : Nat} {draft : Draft} (distinct : draft.entries.Distinct) :
    Gives (fun last : Draft => last.entries.Distinct) (expressions bound draft) := by
  induction bound generalizing draft with
  | zero => exact .pure distinct
  | succ bound ih =>
      refine .orElse (.after fun _ => .after fun _ => .pure distinct) ?_
      exact (gives_expression distinct).bind fun next still => ih still

/-- **The tables of a document.** In what a document denotes, every table has its entries in ascending order
of their keys, no two of which are the same. -/
theorem ordered_of_read? {text : String} {table : Table} (read : read? text = some table) :
    (Value.table table).Ordered := by
  rw [read?] at read
  obtain ⟨⟨draft, rest⟩, parsed, last⟩ := Option.bind_eq_some_iff.mp read
  have distinct := gives_expressions Entries.distinct_nil _ _ _ parsed
  by_cases complete : rest.isEmpty = true
  · simp only [complete, if_pos, Option.some.injEq] at last
    exact last ▸ distinct.ordered
  · simp [complete] at last

end Highlight.Toml
