import Highlight.Catalog.Basic

/-! # What a catalog gives

Every grammar that a catalog finds, by name or by extension, is one that was added to it. So the grammars
found in the catalog of the built-in ones are built in (`Highlight.Catalog.mem_all_of_detect?`,
`Highlight.Catalog.mem_all_of_find?`).
-/

namespace Highlight.Catalog

variable {catalog : Catalog} {grammar : Grammar} {grammars : List Grammar} {theme : Theme}

/-- Whether the catalog has the grammar under some name. -/
def Has (catalog : Catalog) (grammar : Grammar) : Prop := ∃ name, (name, grammar) ∈ catalog.grammars

theorem has_add {added : Grammar} (has : (catalog.add added).Has grammar) :
    grammar = added ∨ catalog.Has grammar := by
  obtain ⟨name, listed⟩ := has
  rcases List.mem_cons.mp listed with new | old
  · exact .inl (congrArg Prod.snd new)
  · exact .inr ⟨name, (List.mem_filter.mp old).1⟩

/-- After several additions there is nothing but what was added or there before. -/
theorem mem_or_has_of_foldl (has : (grammars.foldl add catalog).Has grammar) :
    grammar ∈ grammars ∨ catalog.Has grammar := by
  induction grammars generalizing catalog with
  | nil => exact .inr has
  | cons first rest ih =>
      rcases ih has with later | before
      · exact .inl (List.mem_cons_of_mem _ later)
      · rcases has_add before with rfl | earlier
        · exact .inl List.mem_cons_self
        · exact .inr earlier

theorem mem_all_of_has (has : (builtIn theme).Has grammar) : grammar ∈ Languages.all theme := by
  rcases mem_or_has_of_foldl has with member | ⟨name, listed⟩
  · exact member
  · exact absurd listed List.not_mem_nil

theorem has_of_get? {name : String} (found : catalog.get? name = some grammar) :
    catalog.Has grammar := by
  obtain ⟨before, after, split, _⟩ := List.lookup_eq_some_iff.mp found
  exact ⟨name, split ▸ List.mem_append_right _ List.mem_cons_self⟩

theorem has_of_find? {name : String} (found : catalog.find? name = some grammar) :
    catalog.Has grammar := by
  rcases Option.or_eq_some_iff.mp found with exactly | ⟨_, similar⟩
  · exact has_of_get? exactly
  · obtain ⟨⟨other, same⟩, listed, rfl⟩ := Option.map_eq_some_iff.mp similar
    exact ⟨other, List.mem_of_find?_eq_some listed⟩

theorem has_of_detect? {path : String} (found : catalog.detect? path = some grammar) :
    catalog.Has grammar := by
  obtain ⟨extension, _, owned⟩ := Option.bind_eq_some_iff.mp found
  obtain ⟨name, _, known⟩ := Option.bind_eq_some_iff.mp owned
  exact has_of_get? known

theorem mem_all_of_find? {name : String} (found : (builtIn theme).find? name = some grammar) :
    grammar ∈ Languages.all theme :=
  mem_all_of_has (has_of_find? found)

theorem mem_all_of_detect? {path : String} (found : (builtIn theme).detect? path = some grammar) :
    grammar ∈ Languages.all theme :=
  mem_all_of_has (has_of_detect? found)

end Highlight.Catalog
