import Highlight.Proofs.Text.Lowercase
import Highlight.Proofs.Toml.Ordered
import Highlight.Settings

/-! # Which documents hold settings

What a document has to be like to hold settings is a list of demands (`Highlight.Settings.demands`): each says
what the value under a key, if there is one, has to be. A document that meets them all holds settings, in
which a style differs from its default in the attributes that its entry names and in no others. Any other
document is refused for the first demand that it does not meet (`Highlight.Settings.parse_spec`).
-/

namespace Highlight.Settings

/-! ## Demands -/

/-- Whether a value gives a color. -/
inductive GivesColor : Toml.Value → Color → Prop where
  | name {text : String} {color : Color} (known : Color.ofName? text = some color) :
      GivesColor (.string text) color

/-- Whether a value gives a weight, by a word in either case or by a number. -/
inductive GivesWeight : Toml.Value → Weight → Prop where
  | normal {text : String} (word : Text.Spells text "normal") : GivesWeight (.string text) ⟨400⟩
  | bold {text : String} (word : Text.Spells text "bold") : GivesWeight (.string text) ⟨700⟩
  | number {value : Nat} (low : 1 ≤ value) (high : value ≤ 1000) :
      GivesWeight (.integer value) ⟨value⟩

/-- Whether a value gives a truth value. -/
inductive GivesBoolean : Toml.Value → Bool → Prop where
  | boolean (flag : Bool) : GivesBoolean (.boolean flag) flag

/-- Whether a value gives a table. -/
inductive GivesTable : Toml.Value → Toml.Table → Prop where
  | table (entries : Toml.Table) : GivesTable (.table entries) entries

/-- Whether a value is what a setting has to be. -/
def Expectation.Meets : Expectation → Toml.Value → Prop
  | boolean, value => ∃ flag, GivesBoolean value flag
  | table, value => ∃ entries, GivesTable value entries
  | color, value => ∃ color, GivesColor value color
  | weight, value => ∃ weight, GivesWeight value weight

/-- What the value of a key has to be, if the key has a value. -/
structure Demand where
  key : String
  value : Option Toml.Value
  expectation : Expectation

/-- Whether a demand is met. -/
def Demand.Met (demand : Demand) : Prop :=
  ∀ value, demand.value = some value → demand.expectation.Meets value

/-- The fault of a demand that is not met. -/
def Demand.fault (demand : Demand) : Fault := .unexpected demand.key demand.expectation

/-- The attributes that the entry for a style may name, in the order in which they are examined. -/
def attributes : List (String × Expectation) :=
  [("foreground", .color), ("background", .color), ("weight", .weight), ("italic", .boolean),
    ("underline", .boolean), ("strikethrough", .boolean)]

/-- What the entry for a style has to be: a table, and each attribute in it of its kind. -/
def entryDemands (entry : String × Toml.Value) : List Demand :=
  ⟨"styles." ++ entry.1, some entry.2, .table⟩ ::
    attributes.map fun (key, expectation) =>
      ⟨"styles." ++ entry.1 ++ "." ++ key, (entry.2.table?.getD []).lookup key, expectation⟩

/-- The entries for styles in a document. -/
def styleEntries (table : Toml.Table) : Toml.Table :=
  ((table.lookup "styles").bind Toml.Value.table?).getD []

/-- What a document has to be to hold settings. -/
def demands (table : Toml.Table) : List Demand :=
  ⟨"enabled", table.lookup "enabled", .boolean⟩ :: ⟨"styles", table.lookup "styles", .table⟩ ::
    (styleEntries table).flatMap entryDemands

/-- Whether a demand is the first of a list that is not met. -/
def FirstUnmet (list : List Demand) (demand : Demand) : Prop :=
  ∃ before after, list = before ++ demand :: after ∧ (∀ earlier ∈ before, earlier.Met) ∧ ¬ demand.Met

/-! ## What settings hold -/

/-- Whether an attribute is the one that a value gives, or is as before where there is no value. -/
inductive Overwritten (gives : Toml.Value → α → Prop) (base : Option α) :
    Option Toml.Value → Option α → Prop where
  | kept : Overwritten gives base none base
  | given {value : Toml.Value} {setting : α} (known : gives value setting) :
      Overwritten gives base (some value) (some setting)

/-- Whether a style is another one but for the attributes that an entry names. -/
structure Overwrites (entry : Toml.Table) (base style : Style) : Prop where
  foreground : Overwritten GivesColor base.foreground (entry.lookup "foreground") style.foreground
  background : Overwritten GivesColor base.background (entry.lookup "background") style.background
  weight : Overwritten GivesWeight base.weight (entry.lookup "weight") style.weight
  italic : Overwritten GivesBoolean base.italic (entry.lookup "italic") style.italic
  underline : Overwritten GivesBoolean base.underline (entry.lookup "underline") style.underline
  strikethrough :
    Overwritten GivesBoolean base.strikethrough (entry.lookup "strikethrough") style.strikethrough

/-- Whether a theme is another one but for the styles that have entries. -/
structure Restyles (entries : Toml.Table) (base theme : Theme) : Prop where
  kept : ∀ name, entries.lookup name = none → theme.get? name = base.get? name
  overwritten : ∀ name value, entries.lookup name = some value →
    ∃ entry style, value = .table entry ∧ theme.get? name = some style ∧
      Overwrites entry ((base.get? name).getD .plain) style

/-- Whether settings are those of a document. -/
structure Holds (table : Toml.Table) (settings : Settings) : Prop where
  enabled : Overwritten GivesBoolean (some true) (table.lookup "enabled") (some settings.enabled)
  styles : Restyles (styleEntries table) .standard settings.theme

/-- Whether the outcome of reading a table as settings is the right one. It is a success if and only if all
demands are met; then the settings are those that the table describes; and the fault is that of the first
demand that is not met. -/
structure Judged (table : Toml.Table) (outcome : Except Fault Settings) : Prop where
  accepted : (∃ settings, outcome = .ok settings) ↔ ∀ demand ∈ demands table, demand.Met
  described : ∀ settings, outcome = .ok settings → Holds table settings
  refused : ∀ fault, outcome = .error fault ↔
    ∃ demand, FirstUnmet (demands table) demand ∧ fault = demand.fault

/-! ## Examining in order -/

theorem FirstUnmet.not_forall {list : List Demand} {demand : Demand} (first : FirstUnmet list demand) :
    ¬ ∀ demand ∈ list, demand.Met := by
  obtain ⟨before, after, rfl, _, unmet⟩ := first
  exact fun met => unmet (met demand (by simp))

/-- Two demands of one list that are the first unmet one are the same. -/
theorem FirstUnmet.unique {list : List Demand} {demand other : Demand} (first : FirstUnmet list demand)
    (second : FirstUnmet list other) : demand = other := by
  obtain ⟨before, after, rfl, met, unmet⟩ := first
  obtain ⟨front, rest, same, also, failing⟩ := second
  rcases List.append_eq_append_iff.mp same with ⟨gap, rfl, within⟩ | ⟨gap, rfl, within⟩
  · cases gap with
    | nil => exact (List.cons.inj within).1
    | cons next gap =>
        have here : demand ∈ before ++ next :: gap := by simp [(List.cons.inj within).1]
        exact absurd (also demand here) unmet
  · cases gap with
    | nil => exact (List.cons.inj within).1.symm
    | cons next gap =>
        have here : other ∈ front ++ next :: gap := by simp [(List.cons.inj within).1]
        exact absurd (met other here) failing

/-- What examining demands in order results in: something that is known, or the fault of the first demand
that is not met. -/
inductive Examined (known : α → Prop) (list : List Demand) : Except Fault α → Prop where
  | accepted {value : α} (met : ∀ demand ∈ list, demand.Met) (holds : known value) :
      Examined known list (.ok value)
  | refused {demand : Demand} (first : FirstUnmet list demand) :
      Examined known list (.error demand.fault)

namespace Examined

variable {α β : Type} {known : α → Prop} {later : β → Prop} {list more : List Demand}
  {result : Except Fault α}

theorem pure {value : α} (holds : known value) : Examined known [] (Pure.pure value) :=
  .accepted (List.forall_mem_nil _) holds

/-- Values examined one after another meet the demands of both, and the first unmet demand is reported. -/
theorem bind {further : α → Except Fault β} (examined : Examined known list result)
    (next : ∀ value, known value → Examined later more (further value)) :
    Examined later (list ++ more) (result >>= further) := by
  cases examined with
  | refused first =>
      obtain ⟨before, after, rfl, met, unmet⟩ := first
      exact .refused ⟨before, after ++ more, by simp, met, unmet⟩
  | @accepted value met holds =>
      show Examined later (list ++ more) (further value)
      have examined := next value holds
      generalize further value = result at examined
      cases examined with
      | accepted also rest => exact .accepted (List.forall_mem_append.mpr ⟨met, also⟩) rest
      | refused first =>
          obtain ⟨before, after, rfl, also, unmet⟩ := first
          exact .refused ⟨list ++ before, after, by simp, List.forall_mem_append.mpr ⟨met, also⟩,
            unmet⟩

/-- A demand that is met may be put in front. -/
theorem cons (examined : Examined known list result) {demand : Demand} (met : demand.Met) :
    Examined known (demand :: list) result := by
  have alone : Examined (fun _ : Unit => True) [demand] (.ok ()) :=
    .accepted (List.forall_mem_singleton.mpr met) trivial
  exact alone.bind fun _ _ => examined

/-- A demand that is not met and stands first is the one that is refused. -/
theorem refused_cons {demand : Demand} (unmet : ¬ demand.Met) :
    Examined known (demand :: list) (.error demand.fault) :=
  .refused ⟨[], list, rfl, List.forall_mem_nil _, unmet⟩

theorem imp (examined : Examined known list result) {other : α → Prop}
    (imp : ∀ value, known value → other value) : Examined other list result := by
  cases examined with
  | accepted met holds => exact .accepted met (imp _ holds)
  | refused first => exact .refused first

theorem exists_ok_iff (examined : Examined known list result) :
    (∃ value, result = .ok value) ↔ ∀ demand ∈ list, demand.Met := by
  cases examined with
  | accepted met _ => exact ⟨fun _ => met, fun _ => ⟨_, rfl⟩⟩
  | refused first => exact ⟨nofun, fun met => absurd met first.not_forall⟩

/-- What is known holds of the result. -/
theorem of_ok (examined : Examined known list result) {value : α} (ends : result = .ok value) :
    known value := by
  cases examined with
  | accepted _ holds =>
      cases ends
      exact holds
  | refused _ => cases ends

/-- The fault is that of the first demand that is not met. -/
theorem eq_error_iff (examined : Examined known list result) {fault : Fault} :
    result = .error fault ↔ ∃ demand, FirstUnmet list demand ∧ fault = demand.fault := by
  cases examined with
  | accepted met _ => exact ⟨nofun, fun ⟨demand, first, _⟩ => absurd met first.not_forall⟩
  | refused first =>
      constructor
      · rintro ⟨⟩
        exact ⟨_, first, rfl⟩
      · rintro ⟨demand, second, rfl⟩
        rw [first.unique second]

end Examined

/-! ## Reading values -/

/-- Whether a function reads values as an expectation has them. -/
structure Reads (read? : Toml.Value → Option α) (gives : Toml.Value → α → Prop)
    (expectation : Expectation) : Prop where
  eq_some_iff : ∀ value setting, read? value = some setting ↔ gives value setting
  meets_iff : ∀ value, expectation.Meets value ↔ ∃ setting, gives value setting

/-- Booleans are read from booleans only. -/
theorem reads_boolean : Reads Toml.Value.boolean? GivesBoolean .boolean where
  eq_some_iff value flag := by
    constructor
    · intro read
      cases value <;> cases read
      exact .boolean flag
    · rintro ⟨⟩
      rfl
  meets_iff _ := Iff.rfl

/-- Tables are read from tables only. -/
theorem reads_table : Reads Toml.Value.table? GivesTable .table where
  eq_some_iff value entries := by
    constructor
    · intro read
      cases value <;> cases read
      exact .table entries
    · rintro ⟨⟩
      rfl
  meets_iff _ := Iff.rfl

/-- Colors are read from texts that name one. -/
theorem reads_color : Reads color? GivesColor .color where
  eq_some_iff value color := by
    constructor
    · intro read
      cases value <;> first | cases read | exact .name read
    · rintro ⟨known⟩
      exact known
  meets_iff _ := Iff.rfl

/-- The words for weights have only letters that no letter above ASCII has as its lower-case form. -/
theorem isPlainLetter_of_mem_words :
    ∀ word ∈ ["normal", "bold"], ∀ letter ∈ word.toList, Text.IsPlainLetter letter := by
  have plain : (["normal", "bold"].all fun word => word.toList.all fun letter =>
      97 ≤ letter.toNat ∧ letter.toNat ≤ 122 ∧ letter ≠ 'i' ∧ letter ≠ 'k') = true := by decide
  intro word listed letter member
  have letters := List.all_eq_true.mp plain word listed
  obtain ⟨low, high, notI, notK⟩ := of_decide_eq_true (List.all_eq_true.mp letters letter member)
  exact ⟨low, high, notI, notK⟩

/-- Weights are read from the two words for them, in either case, and from whole numbers within their
bounds. -/
theorem reads_weight : Reads weight? GivesWeight .weight where
  eq_some_iff value weight := by
    have normal (text : String) : Text.lowercase text = "normal" ↔ Text.Spells text "normal" :=
      Text.lowercase_eq_iff (isPlainLetter_of_mem_words _ (by simp))
    have bold (text : String) : Text.lowercase text = "bold" ↔ Text.Spells text "bold" :=
      Text.lowercase_eq_iff (isPlainLetter_of_mem_words _ (by simp))
    constructor
    · intro read
      cases value with
      | string text =>
          rw [weight?] at read
          split at read
          · rename_i word
            cases read
            exact .normal ((normal text).mp word)
          · rename_i word
            cases read
            exact .bold ((bold text).mp word)
          · cases read
      | integer number =>
          rw [weight?] at read
          split at read
          · rename_i range
            cases read
            obtain ⟨natural, rfl⟩ := Int.eq_ofNat_of_zero_le (by omega : 0 ≤ number)
            exact .number (by omega) (by omega)
          · cases read
      | _ => cases read
    · rintro (word | word | ⟨low, high⟩)
      · rw [weight?, (normal _).mpr word]
        rfl
      · rw [weight?, (bold _).mpr word]
        rfl
      · rw [weight?, if_pos (by omega)]
        rfl
  meets_iff _ := Iff.rfl

section Fields

variable {α : Type} {read? : Toml.Value → Option α} {gives : Toml.Value → α → Prop}
  {expectation : Expectation}

/-- A field is examined by reading its value, if it is there. -/
theorem examined_field (reads : Reads read? gives expectation) (table : Toml.Table) (key path : String) :
    Examined (Option.Rel gives (table.lookup key)) [⟨path, table.lookup key, expectation⟩]
      (field table key path read? expectation) := by
  rw [field]
  cases found : table.lookup key with
  | none => exact .accepted (by simp [Demand.Met]) .none
  | some value =>
      dsimp only
      cases read : read? value with
      | none =>
          have unmet : ¬ Demand.Met ⟨path, some value, expectation⟩ := by
            intro met
            obtain ⟨setting, given⟩ := (reads.meets_iff value).mp (met value rfl)
            rw [(reads.eq_some_iff value setting).mpr given] at read
            cases read
          exact .refused_cons unmet
      | some setting =>
          have given := (reads.eq_some_iff value setting).mp read
          refine .cons (.pure (.some given)) ?_
          rintro _ ⟨⟩
          exact (reads.meets_iff value).mpr ⟨setting, given⟩

theorem overwritten_or {value : Option Toml.Value} {setting : Option α}
    (same : Option.Rel gives value setting) (base : Option α) :
    Overwritten gives base value (setting.or base) := by
  cases same with
  | none => exact .kept
  | some given => exact .given given

end Fields

/-- A style is examined attribute by attribute, and overwrites those that are set. -/
theorem examined_styleOf (name : String) (entry : Toml.Table) :
    Examined (fun style => ∀ base : Style, Overwrites entry base (base.overlay style))
      (attributes.map fun (key, expectation) =>
        ⟨"styles." ++ name ++ "." ++ key, entry.lookup key, expectation⟩)
      (styleOf name entry) := by
  refine (examined_field reads_color ..).bind fun _ foreground => ?_
  refine (examined_field reads_color ..).bind fun _ background => ?_
  refine (examined_field reads_weight ..).bind fun _ weight => ?_
  refine (examined_field reads_boolean ..).bind fun _ italic => ?_
  refine (examined_field reads_boolean ..).bind fun _ underline => ?_
  refine (examined_field reads_boolean ..).bind fun _ strikethrough => ?_
  exact .pure fun base => {
    foreground := overwritten_or foreground _
    background := overwritten_or background _
    weight := overwritten_or weight _
    italic := overwritten_or italic _
    underline := overwritten_or underline _
    strikethrough := overwritten_or strikethrough _ }

theorem lookup_cons_ne {name other : String} (apart : name ≠ other) (value : Toml.Value)
    (entries : Toml.Table) : List.lookup name ((other, value) :: entries) = entries.lookup name := by
  rw [List.lookup_cons, beq_eq_false_iff_ne.mpr apart]

/-- Adding an entry for a style changes that style only. -/
theorem examined_addStyle (theme : Theme) (entry : String × Toml.Value) :
    Examined (Restyles [entry] theme) (entryDemands entry) (addStyle theme entry) := by
  obtain ⟨name, value⟩ := entry
  rw [addStyle]
  cases found : value.table? with
  | none =>
      have unmet : ¬ Demand.Met ⟨"styles." ++ name, some value, .table⟩ := by
        intro met
        obtain ⟨entries, given⟩ := met value rfl
        rw [(reads_table.eq_some_iff value entries).mpr given] at found
        cases found
      exact .refused_cons unmet
  | some entries =>
      cases (reads_table.eq_some_iff value entries).mp found
      refine .cons ?_ ?_
      · rw [← List.append_nil (List.map _ _)]
        refine (examined_styleOf name entries).bind fun style overwrites => .pure {
          kept := fun other absent => ?_
          overwritten := fun other value present => ?_ }
        · have apart : other ≠ name := by
            rintro rfl
            simp at absent
          rw [Theme.get?_set, if_neg apart]
        · by_cases same : other = name
          · subst same
            refine ⟨entries, _, ?_, by rw [Theme.get?_set, if_pos rfl], overwrites _⟩
            simpa using present.symm
          · rw [lookup_cons_ne same] at present
            cases present
      · rintro _ ⟨⟩
        exact ⟨entries, .table entries⟩

/-- Entries under other names do not see each other. -/
theorem Restyles.trans {name : String} {value : Toml.Value} {entries : Toml.Table}
    {base middle theme : Theme} (apart : ∀ other ∈ entries, name ≠ other.1)
    (first : Restyles [(name, value)] base middle) (second : Restyles entries middle theme) :
    Restyles ((name, value) :: entries) base theme := by
  have absent : entries.lookup name = none :=
    List.lookup_eq_none_iff.mpr fun other listed => by simpa using apart other listed
  refine ⟨fun other missing => ?_, fun other setting present => ?_⟩
  · by_cases same : other = name
    · subst same
      simp at missing
    · rw [lookup_cons_ne same] at missing
      rw [second.kept other missing, first.kept other (lookup_cons_ne same value [])]
  · by_cases same : other = name
    · subst same
      rw [List.lookup_cons_self] at present
      rw [second.kept _ absent]
      exact first.overwritten _ setting (List.lookup_cons_self.trans present)
    · rw [lookup_cons_ne same] at present
      rw [← first.kept other (lookup_cons_ne same value [])]
      exact second.overwritten other setting present

/-- Styles are examined entry by entry in the order of their names, and each is laid over that of the
theme. -/
theorem examined_styles {entries : Toml.Table}
    (ascending : entries.Pairwise fun first second => first.1 < second.1) (theme : Theme) :
    Examined (Restyles entries theme) (entries.flatMap entryDemands)
      (entries.foldlM addStyle theme) := by
  induction ascending generalizing theme with
  | nil => exact .pure ⟨fun _ _ => rfl, fun _ _ found => by simp at found⟩
  | @cons entry entries above _ ih =>
      rw [List.foldlM_cons, List.flatMap_cons]
      refine (examined_addStyle theme entry).bind fun middle first => (ih middle).imp fun last later => ?_
      exact .trans (fun other listed => (above other listed).ne) first later

/-- The entries for styles of an ordered table are in order of their names. -/
theorem pairwise_styleEntries {table : Toml.Table} (ordered : (Toml.Value.table table).Ordered) :
    (styleEntries table).Pairwise fun first second => first.1 < second.1 := by
  cases ordered with
  | table _ each =>
      rw [styleEntries]
      cases found : table.lookup "styles" with
      | none => exact .nil
      | some value =>
          obtain ⟨before, after, rfl, _⟩ := List.lookup_eq_some_iff.mp found
          have ordered := each ("styles", value) (by simp)
          cases value with
          | table entries =>
              cases ordered with
              | table ascending _ => exact ascending
          | _ => exact .nil

/-- The settings of a table are examined in the order of the demands, if the entries for styles stand in
ascending order of their names: then no entry sees another one. -/
theorem examined_ofTable {table : Toml.Table}
    (ascending : (styleEntries table).Pairwise fun first second => first.1 < second.1) :
    Examined (Holds table) (demands table) (ofTable table) := by
  refine (examined_field reads_boolean table ..).bind fun flag enabled => ?_
  refine (examined_field reads_table table ..).bind fun found styles => ?_
  have same : found.getD [] = styleEntries table := by
    rw [styleEntries]
    generalize table.lookup "styles" = value at styles
    cases styles with
    | none => rfl
    | some given => rw [Option.bind_some, (reads_table.eq_some_iff _ _).mpr given]
  have each := examined_styles ascending .standard
  rw [same, ← List.append_nil (List.flatten _)]
  refine each.bind fun theme restyles => .pure ⟨?_, restyles⟩
  dsimp only
  generalize table.lookup "enabled" = value at enabled
  cases enabled with
  | none => exact .kept
  | some given => exact .given given

/-- Tables whose entries for styles stand in ascending order are judged rightly. -/
theorem judged_ofTable {table : Toml.Table}
    (ascending : (styleEntries table).Pairwise fun first second => first.1 < second.1) :
    Judged table (ofTable table) where
  accepted := (examined_ofTable ascending).exists_ok_iff
  described := fun _ => (examined_ofTable ascending).of_ok
  refused := fun _ => (examined_ofTable ascending).eq_error_iff

/-- **Which documents hold settings.** A table holds settings if and only if it meets all demands. Then
highlighting is enabled as the table says, or else by default; and every style is the default one with
exactly the attributes changed that its entry names, or just the default one where it has no entry. If a
demand is not met, the first one that is not met is named. This is so for every table in which the entries
for styles stand in ascending order of their names, as they do in every table that a document denotes. -/
theorem parse_spec (table : Toml.Table) :
    ((styleEntries table).Pairwise (fun first second => first.1 < second.1) →
      Judged table (ofTable table)) ∧
    ∀ text, Toml.read? text = some table →
      (styleEntries table).Pairwise (fun first second => first.1 < second.1) ∧
        Judged table (parse text) := by
  refine ⟨judged_ofTable, fun text read => ?_⟩
  have ascending := pairwise_styleEntries (Toml.ordered_of_read? read)
  have same : parse text = ofTable table := by rw [parse, read]
  exact ⟨ascending, same ▸ judged_ofTable ascending⟩

section Reading

open Toml Reader

/-- One line of settings, read step by step. -/
theorem read?_bold :
    read? "styles.Todo.weight='Bold'" =
      some [("styles", .table [("Todo", .table [("weight", .string "Bold")])])] := by
  have key : dottedKey "styles.Todo.weight='Bold'".toList =
      some (["styles", "Todo", "weight"], "='Bold'".toList) := by
    decide +kernel
  have text : stringText "'Bold'".toList = some ("Bold", []) := by decide +kernel
  have given : value nestingLimit "'Bold'".toList = some (.string "Bold", []) := by
    rw [nestingLimit, value, scalar]
    refine orElse_of_some (orElse_of_some ?_)
    rw [bind_of_some text]
    rfl
  obtain ⟨entries, added, inOrder⟩ : ∃ entries : Entries,
      Entries.changeAt false
          (fun _ table => table.addValue ["styles", "Todo"] "weight" (.string "Bold")) [] false [] =
        some entries ∧
      Table.sorted (entriesToTable entries) =
        [("styles", .table [("Todo", .table [("weight", .string "Bold")])])] :=
    ⟨[("styles", .table true true
        [("Todo", .table true true [("weight", .value (.string "Bold"))])])],
      by simp [Entries.changeAt, Entries.addValue],
      by simp [Table.sorted, entriesToTable, Node.toValue]⟩
  have line : keyValue {} "styles.Todo.weight='Bold'".toList = some (⟨entries, []⟩, []) := by
    have sign : discard (char '=') "='Bold'".toList = some ((), "'Bold'".toList) := rfl
    have space : blanks "'Bold'".toList = some ((), "'Bold'".toList) := rfl
    have last : lineRest [] = some ((), []) := rfl
    rw [keyValue, bind_of_some key, bind_of_some sign, bind_of_some space, bind_of_some given,
      bind_of_some last]
    exact bind_of_some (liftM_of_some added)
  have whole : expression {} "styles.Todo.weight='Bold'".toList = some (⟨entries, []⟩, []) := by
    have space : blanks "styles.Todo.weight='Bold'".toList =
        some ((), "styles.Todo.weight='Bold'".toList) := rfl
    rw [expression, bind_of_some space, orElse_of_none (by rfl), orElse_of_none (by rfl),
      orElse_of_none (by rfl), line]
  rw [read?]
  refine Option.bind_eq_some_iff.mpr ⟨(⟨entries, []⟩, []), ?_, by simpa using inOrder⟩
  show expressions 26 {} "styles.Todo.weight='Bold'".toList = _
  rw [expressions, orElse_of_none (by rfl), bind_of_some whole]
  rfl

end Reading

/-- A word for a weight may have capital letters. -/
theorem parse_spec_bold :
    Toml.read? "styles.Todo.weight='Bold'" =
        some [("styles", .table [("Todo", .table [("weight", .string "Bold")])])] ∧
      ∃ settings, parse "styles.Todo.weight='Bold'" = .ok settings ∧
        Holds [("styles", .table [("Todo", .table [("weight", .string "Bold")])])] settings := by
  obtain ⟨_, judged⟩ := (parse_spec _).2 _ read?_bold
  have met : ∀ demand ∈ demands [("styles", .table [("Todo", .table [("weight", .string "Bold")])])],
      demand.Met := by
    intro demand listed
    simp only [demands, List.lookup_cons_self, styleEntries, Option.bind_some, Toml.Value.table?,
      Option.getD_some, List.flatMap_cons, entryDemands, String.reduceAppend, attributes,
      List.map_cons, List.map_nil, List.flatMap_nil, List.append_nil, List.mem_cons,
      List.not_mem_nil, or_false] at listed
    rcases listed with rfl | rfl | rfl | rfl | rfl | rfl | rfl | rfl | rfl
    all_goals rintro value ⟨⟩
    · exact ⟨_, .table _⟩
    · exact ⟨_, .table _⟩
    · exact ⟨_, .bold (by decide)⟩
  obtain ⟨settings, ends⟩ := judged.accepted.mpr met
  exact ⟨read?_bold, settings, ends, judged.described settings ends⟩

end Highlight.Settings
