import Highlight.Catalog.Basic
import Mathlib.Data.List.Induction

/-! # Which grammar is detected

A catalog remembers of an extension only the name of the grammar that was added for it last, and does not
forget an extension when a grammar that declares it is replaced by one that does not. The grammar detected
for a file is therefore the one now registered under the name of the latest addition that declares the
extension. It is the latest of the registered grammars that declare the extension just if it declares the
extension at all (`Highlight.Catalog.detected_iff_declares`).
-/

namespace Highlight

/-- Whether the extension is one of the grammar's, in whatever case both are written. -/
def Grammar.declares (grammar : Grammar) (extension : String) : Bool :=
  grammar.extensions.any fun declared => Text.lowercase declared == Text.lowercase extension

namespace Catalog

variable {additions before after : List Grammar} {grammar : Grammar} {name extension : String}

/-- The latest of some grammars, given in the order in which they were added, that has a property. -/
def latest? (has : Grammar → Bool) (additions : List Grammar) : Option Grammar :=
  additions.reverse.find? has

/-- Those of the added grammars that no later one has replaced, in the order in which they were added. -/
def registered : List Grammar → List Grammar
  | [] => []
  | grammar :: rest =>
    if rest.any (·.name == grammar.name) then registered rest else grammar :: registered rest

/-- The name of the grammar that was added last for an extension. -/
def owner? (catalog : Catalog) (extension : String) : Option String :=
  catalog.owners.lookup (Text.lowercase extension)

/-! ## One addition -/

/-- Dropping the entry of one name leaves what is found under the others. -/
theorem lookup_filter_of_ne {dropped : String} (different : dropped ≠ name)
    (entries : List (String × Grammar)) :
    (entries.filter (·.1 != dropped)).lookup name = entries.lookup name := by
  induction entries with
  | nil => rfl
  | cons entry rest ih =>
      by_cases replaced : entry.1 = dropped
      · have absent : (name == entry.1) = false := by
          rw [replaced]
          exact beq_eq_false_iff_ne.mpr (Ne.symm different)
        rw [List.filter_cons, if_neg (by simp [replaced]), ih, List.lookup_cons, absent]
      · rw [List.filter_cons, if_pos (by simpa using replaced), List.lookup_cons, List.lookup_cons, ih]

/-- A grammar is found by its name once it has been added, and the others are found as before. -/
theorem get?_add (catalog : Catalog) (grammar : Grammar) (name : String) :
    (catalog.add grammar).get? name =
      if grammar.name == name then some grammar else catalog.get? name := by
  rw [get?, add, List.lookup_cons]
  by_cases same : grammar.name = name
  · simp [same]
  · have absent : (name == grammar.name) = false := beq_eq_false_iff_ne.mpr (Ne.symm same)
    rw [absent, lookup_filter_of_ne same, if_neg (by simpa using same)]
    rfl

/-- What is found of an extension after those of a grammar have been entered. -/
theorem lookup_foldl_owners (owner extension : String) (extensions : List String)
    (owners : List (String × String)) :
    (extensions.foldl (fun owners declared => (Text.lowercase declared, owner) :: owners)
        owners).lookup extension =
      if extensions.any (Text.lowercase · == extension) then some owner
      else owners.lookup extension := by
  induction extensions generalizing owners with
  | nil => rfl
  | cons first rest ih =>
      rw [List.foldl_cons, ih, List.lookup_cons, List.any_cons, BEq.comm (a := extension)]
      cases Text.lowercase first == extension <;> simp

theorem owner?_add (catalog : Catalog) (grammar : Grammar) (extension : String) :
    (catalog.add grammar).owner? extension =
      if grammar.declares extension then some grammar.name else catalog.owner? extension :=
  lookup_foldl_owners grammar.name (Text.lowercase extension) grammar.extensions catalog.owners

/-! ## Several additions -/

theorem latest?_append (has : Grammar → Bool) (before after : List Grammar) :
    latest? has (before ++ after) = (latest? has after).or (latest? has before) := by
  rw [latest?, List.reverse_append, List.find?_append]
  rfl

theorem latest?_concat (has : Grammar → Bool) (additions : List Grammar) (grammar : Grammar) :
    latest? has (additions ++ [grammar]) =
      if has grammar then some grammar else latest? has additions := by
  rw [latest?_append, latest?, List.reverse_singleton, List.find?_singleton]
  cases has grammar <;> rfl

/-- The latest grammar with a property has it, and none that was added behind it does. -/
theorem latest?_eq_some_iff {has : Grammar → Bool} :
    latest? has additions = some grammar ↔
      has grammar = true ∧ ∃ before after, additions = before ++ grammar :: after ∧
        ∀ later ∈ after, has later = false := by
  rw [latest?, List.find?_eq_some_iff_append]
  refine and_congr_right fun _ => ⟨?_, ?_⟩
  · rintro ⟨late, early, split, none⟩
    refine ⟨early.reverse, late.reverse, ?_, fun later member => ?_⟩
    · rw [List.reverse_eq_iff.mp split]
      simp
    · simpa using none later (List.mem_reverse.mp member)
  · rintro ⟨before, after, rfl, none⟩
    refine ⟨after.reverse, before.reverse, by simp, fun later member => ?_⟩
    simpa using none later (List.mem_reverse.mp member)

/-- The grammar found under a name is the latest of that name. -/
theorem get?_foldl_add (additions : List Grammar) (name : String) :
    (additions.foldl add empty).get? name = latest? (·.name == name) additions := by
  induction additions using List.reverseRecOn with
  | nil => rfl
  | append_singleton earlier grammar ih =>
      rw [List.foldl_append, List.foldl_cons, List.foldl_nil, get?_add, latest?_concat, ih]

/-- The latest addition that declares an extension owns it. -/
theorem owner?_foldl_add (additions : List Grammar) (extension : String) :
    (additions.foldl add empty).owner? extension =
      (latest? (·.declares extension) additions).map Grammar.name := by
  induction additions using List.reverseRecOn with
  | nil => rfl
  | append_singleton earlier grammar ih =>
      rw [List.foldl_append, List.foldl_cons, List.foldl_nil, owner?_add, latest?_concat, ih]
      cases grammar.declares extension <;> rfl

/-! ## Grammars that are still registered -/

/-- What is registered was added, in this order. -/
theorem registered_sublist (additions : List Grammar) : (registered additions).Sublist additions := by
  induction additions with
  | nil => exact .slnil
  | cons grammar rest ih =>
      rw [registered]
      split
      · exact ih.cons _
      · exact ih.cons_cons _

/-- Of the grammars added last, all that are not replaced among themselves are registered. -/
theorem exists_registered_append (before after : List Grammar) :
    ∃ kept, registered (before ++ after) = kept ++ registered after := by
  induction before with
  | nil => exact ⟨[], rfl⟩
  | cons grammar rest ih =>
      obtain ⟨kept, same⟩ := ih
      rw [List.cons_append, registered, same]
      split
      · exact ⟨kept, rfl⟩
      · exact ⟨grammar :: kept, rfl⟩

theorem registered_cons_of_last (last : ∀ later ∈ after, later.name ≠ grammar.name) :
    registered (grammar :: after) = grammar :: registered after := by
  rw [registered, if_neg]
  simpa using last

/-- A grammar is registered if it is what is found under its name. -/
theorem mem_registered_iff :
    grammar ∈ registered additions ↔
      (additions.foldl add empty).get? grammar.name = some grammar := by
  rw [get?_foldl_add, latest?_eq_some_iff, and_iff_right (beq_self_eq_true _)]
  constructor
  · intro member
    induction additions with
    | nil => cases member
    | cons first rest ih =>
        rw [registered] at member
        split at member
        · obtain ⟨before, after, split, last⟩ := ih member
          exact ⟨first :: before, after, congrArg (first :: ·) split, last⟩
        · rename_i unreplaced
          rcases List.mem_cons.mp member with rfl | later
          · exact ⟨[], rest, rfl, by simpa using unreplaced⟩
          · obtain ⟨before, after, split, last⟩ := ih later
            exact ⟨first :: before, after, congrArg (first :: ·) split, last⟩
  · rintro ⟨before, after, rfl, last⟩
    obtain ⟨kept, same⟩ := exists_registered_append before (grammar :: after)
    rw [same, registered_cons_of_last (by simpa using last)]
    exact List.mem_append_right _ List.mem_cons_self

/-! ## Detection -/

section Detection

variable {path : String} (written : extension? path = some extension)
include written

/-- The path is detected by the name that the latest grammar declaring its extension has, and by the grammar
that goes by this name now. -/
theorem detect?_foldl_add (additions : List Grammar) :
    (additions.foldl add empty).detect? path =
      (latest? (·.declares extension) additions).bind fun declaring =>
        (additions.foldl add empty).get? declaring.name := by
  have owned := owner?_foldl_add additions extension
  rw [owner?] at owned
  simp only [detect?, written, Option.bind_eq_bind, Option.bind_some, owned]
  cases latest? (·.declares extension) additions <;> rfl

/-- What is found for a file is the latest addition that declares the extension, or a later one of the same
name. -/
theorem declaring_of_detect? (found : (additions.foldl add empty).detect? path = some grammar) :
    ∃ before declaring after, additions = before ++ declaring :: after ∧
      declaring.declares extension = true ∧
      (∀ later ∈ after, later.declares extension = false) ∧ grammar.name = declaring.name ∧
      (grammar = declaring ∧ (∀ later ∈ after, later.name ≠ grammar.name) ∨ grammar ∈ after) := by
  rw [detect?_foldl_add written] at found
  obtain ⟨declaring, latest, named⟩ := Option.bind_eq_some_iff.mp found
  obtain ⟨declares, before, after, rfl, undeclared⟩ := latest?_eq_some_iff.mp latest
  have own : (latest? (·.name == declaring.name) (declaring :: after)).isSome = true := by
    simp [latest?]
  rw [get?_foldl_add, latest?_append, Option.or_of_isSome own] at named
  obtain ⟨same, front, back, split, last⟩ := latest?_eq_some_iff.mp named
  have name : grammar.name = declaring.name := eq_of_beq same
  refine ⟨before, declaring, after, rfl, declares, undeclared, name, ?_⟩
  rcases List.cons_eq_append_iff.mp split with ⟨_, here⟩ | ⟨_, _, later⟩
  · obtain ⟨rfl, rfl⟩ := List.cons.inj here
    exact .inl ⟨rfl, by simpa using last⟩
  · exact .inr (later ▸ List.mem_append_right _ List.mem_cons_self)

/-- Something is found for a file if an addition declares its extension. -/
theorem detect?_isSome_of_declares (member : grammar ∈ additions)
    (declares : grammar.declares extension = true) :
    ((additions.foldl add empty).detect? path).isSome = true := by
  have some_ : (latest? (·.declares extension) additions).isSome = true :=
    List.find?_isSome.mpr ⟨grammar, List.mem_reverse.mpr member, declares⟩
  obtain ⟨declaring, latest⟩ := Option.isSome_iff_exists.mp some_
  have added : declaring ∈ additions.reverse := List.mem_of_find?_eq_some latest
  rw [detect?_foldl_add written, latest, Option.bind_some, get?_foldl_add]
  exact List.find?_isSome.mpr ⟨declaring, added, beq_self_eq_true _⟩

/-- Where what is found declares the extension, it is the latest registered grammar that does. -/
theorem detect?_eq_latest_of_declares
    (declares : ∀ grammar, (additions.foldl add empty).detect? path = some grammar →
      grammar.declares extension = true) :
    (additions.foldl add empty).detect? path =
      latest? (·.declares extension) (registered additions) := by
  cases found : (additions.foldl add empty).detect? path with
  | none =>
      refine (List.find?_eq_none.mpr fun grammar member declared => ?_).symm
      have added := (registered_sublist additions).subset (List.mem_reverse.mp member)
      have something := detect?_isSome_of_declares written added declared
      rw [found] at something
      cases something
  | some grammar =>
      obtain ⟨before, declaring, after, rfl, _, undeclared, _, ⟨rfl, last⟩ | later⟩ :=
        declaring_of_detect? written found
      · obtain ⟨kept, same⟩ := exists_registered_append before (grammar :: after)
        rw [same, registered_cons_of_last last]
        refine (latest?_eq_some_iff.mpr ⟨declares grammar found, kept, registered after, rfl, ?_⟩).symm
        exact fun later member => undeclared later ((registered_sublist after).subset member)
      · have undeclares := undeclared grammar later
        rw [declares grammar found] at undeclares
        cases undeclares

/-- **Detection.** Grammars are added to a catalog that has none, or that has others already, such as the
built-in ones. For a file with the extension the catalog then gives the grammar registered under the name of
the latest addition that declares the extension. This is the latest of the registered grammars that declare
it, and nothing if there are none, exactly where whatever is given declares it itself. So it is in particular
where each grammar that replaces another one declares the extension if that one did. -/
theorem detected_iff_declares (others added : List Grammar) :
    let catalog := added.foldl add (others.foldl add empty)
    let additions := others ++ added
    catalog.detect? path =
        (latest? (·.declares extension) additions).bind (fun declaring =>
          catalog.get? declaring.name) ∧
      (∀ grammar, grammar ∈ registered additions ↔ catalog.get? grammar.name = some grammar) ∧
      (catalog.detect? path = latest? (·.declares extension) (registered additions) ↔
        ∀ grammar, catalog.detect? path = some grammar → grammar.declares extension = true) ∧
      ((additions.Pairwise fun earlier later => earlier.name = later.name →
          earlier.declares extension = true → later.declares extension = true) →
        catalog.detect? path = latest? (·.declares extension) (registered additions)) := by
  intro catalog additions
  have whole : catalog = additions.foldl add empty := List.foldl_append.symm
  rw [whole]
  refine ⟨detect?_foldl_add written additions, fun grammar => mem_registered_iff,
    ⟨fun same grammar found => ?_, detect?_eq_latest_of_declares written⟩, fun kept => ?_⟩
  · exact (latest?_eq_some_iff.mp (same ▸ found)).1
  · refine detect?_eq_latest_of_declares written fun grammar found => ?_
    obtain ⟨before, declaring, after, split, declares, _, name, ⟨rfl, _⟩ | later⟩ :=
      declaring_of_detect? written found
    · exact declares
    · rw [split] at kept
      have behind := List.rel_of_pairwise_cons (List.pairwise_append.mp kept).2.1 later
      exact behind name.symm declares

end Detection

/-- A grammar that replaces another one keeps its extensions, and with them takes back one that a third
grammar has taken over meanwhile. -/
theorem detected_iff_declares_taken_back :
    let log : Grammar := { name := "Log", extensions := ["LOG", "txt"] }
    let plain : Grammar := { name := "Plain", extensions := ["Txt"] }
    let newer : Grammar := { name := "Log", extensions := ["out", "log", "TXT"] }
    extension? "dir/notes.TXT" = some "TXT" ∧
      ([log, plain].foldl add empty).detect? "dir/notes.TXT" = some plain ∧
      ([newer].foldl add ([log, plain].foldl add empty)).detect? "dir/notes.TXT" = some newer := by
  intro log plain newer
  have written : extension? "dir/notes.TXT" = some "TXT" := by decide +kernel
  obtain ⟨_, _, _, before⟩ := detected_iff_declares written [] [log, plain]
  obtain ⟨_, _, _, after⟩ := detected_iff_declares written [log, plain] [newer]
  exact ⟨written, before (by decide +kernel), after (by decide +kernel)⟩

/-- A grammar that no longer declares an extension is still given for it after it has replaced one that
did. -/
theorem replaced_still_detected :
    let first : Grammar := { name := "Plain", extensions := ["TXT"] }
    let second : Grammar := { name := "Plain" }
    ([first, second].foldl add empty).detect? "a.txt" = some second ∧
      second.declares "txt" = false ∧
      latest? (·.declares "txt") (registered [first, second]) = none := by
  intro first second
  refine ⟨rfl, ?_, ?_⟩
  · decide +kernel
  · rfl

end Catalog

end Highlight
