import Highlight.CommandLine
import Highlight.Proofs.Catalog
import Highlight.Proofs.Languages.Solid
import Highlight.Proofs.Session.Fresh
import Highlight.Proofs.Terminal.Shown

/-! # What the program shows

A file whose language is known is shown as it is, character by character, and every character looks as the
sections around it say (`Highlight.CommandLine.run_shows_file`). The session shows each line as scanning
from the start would, no built-in grammar fails on a line, and the terminal is back in its default state
behind each line.
-/

namespace Highlight.CommandLine

open Terminal

/-! ## Lines on the screen -/

/-- Lines on the screen, joined by line feeds in the default look. -/
def joinCells : List (List Cell) → List Cell
  | [] => []
  | [line] => line
  | line :: rest => line ++ ⟨'\n', {}⟩ :: joinCells rest

/-- The lines of a document, in which each character has the styles of the sections around it. -/
def documentCells (document : Document) (styled : Nat → StyledLine) : List Cell :=
  joinCells ((List.range' 1 document.lineCount).map fun number =>
    lineCells (document.line number) (styled number))

theorem joinCells_cons (line : List Cell) {rest : List (List Cell)} (several : rest ≠ []) :
    joinCells (line :: rest) = line ++ ⟨'\n', {}⟩ :: joinCells rest := by
  rw [joinCells]
  exact several

/-- The characters of joined lines are joined by line feeds. -/
theorem char_joinCells (lines : List (List Cell)) :
    (joinCells lines).map Cell.char = Document.joinLines (lines.map (List.map Cell.char)) := by
  fun_induction joinCells lines with
  | case1 => rfl
  | case2 line => rfl
  | case3 line rest several ih =>
      rw [List.map_append, List.map_cons, ih, List.map_cons, Document.joinLines]
      simpa using several

theorem char_documentCells (document : Document) (styled : Nat → StyledLine) :
    (documentCells document styled).map Cell.char =
      Document.joinLines (document.lines.map String.toList) := by
  rw [documentCells, char_joinCells, List.map_map, ← document.map_line_range', List.map_map]
  congr 1
  exact List.map_congr_left fun number _ => char_cellsFrom _ 0 (document.line number).toList

/-! ## Showing a document -/

section Shown

variable {grammar : Grammar} {document : Document} {styled : Nat → StyledLine}

/-- Lines printed one after another are read off the screen as they are styled, by induction on the lines
that are left: the session stays sound, so that each is answered afresh. -/
theorem read_showLines
    (fresh : ∀ number, grammar.freshLine .empty document number = .ok (styled number))
    (plain : ∀ number, '\x1b' ∉ (document.line number).toList) (count : Nat) {first : Nat}
    {session : Session} (sound : session.Sound grammar .empty document) (positive : 1 ≤ first)
    (ends : first + count = document.lineCount + 1) :
    (showLines true (List.range' first count) session).2 = none ∧
      read .text {} (showLines true (List.range' first count) session).1 =
        joinCells ((List.range' first count).map fun number =>
          lineCells (document.line number) (styled number)) := by
  induction count generalizing first session with
  | zero => exact ⟨rfl, rfl⟩
  | succ count ih =>
      obtain ⟨after, shown, still⟩ := sound.exists_highlight positive (show first ≤ _ by omega)
      rw [fresh first] at shown
      obtain ⟨completes, displays⟩ :=
        ih still (Nat.le_succ_of_le positive) (show first + 1 + count = _ by omega)
      obtain ⟨valid, boundaries⟩ := Grammar.boundaries_of_freshLine (fresh first)
      have line := read_showLine valid boundaries (plain first)
      rw [List.range'_succ, showLines, shown]
      refine ⟨completes, ?_⟩
      dsimp only [Except.mapError]
      rw [still.document_eq, List.append_assoc, line, List.map_cons]
      by_cases last : count = 0
      · subst last
        rw [if_neg (by omega)]
        exact List.append_nil _
      · have feed : ('\n' : Char) ≠ '\x1b' := by decide
        have several : List.range' (first + 1) count ≠ [] := by simpa using last
        rw [if_pos (by omega), List.singleton_append, Terminal.read, if_neg feed, displays,
          joinCells_cons _ (mt List.map_eq_nil_iff.mp several)]

/-- **Documents.** A document is shown in full, each line as scanning from the start highlights it. -/
theorem read_showDocument
    (fresh : ∀ number, grammar.freshLine .empty document number = .ok (styled number))
    (plain : ∀ number, '\x1b' ∉ (document.line number).toList) :
    (showDocument true grammar document).2 = none ∧
      display (showDocument true grammar document).1 = documentCells document styled := by
  have sound : (Session.start grammar document).beginBatch.1.Sound grammar .empty document :=
    (Session.sound_start grammar document).beginBatch
  exact read_showLines fresh plain document.lineCount sound (Nat.le_refl 1) (Nat.add_comm _ _)

end Shown

/-! ## Running the program -/

section Run

variable {surroundings : Surroundings} {args : List String} {options : Options} {file text : String}
  {grammar : Grammar}

/-- An option that is not known is refused, whatever stands before it. -/
theorem parseOptions_of_unknown {option : String} (dashed : option.toList.head? = some '-')
    (unknown : option ∉ ["--list", "--lang", "-l"]) (before : Options) (rest : List String) :
    parseOptions before (option :: rest) = .error (.unknownOption option) := by
  simp only [List.mem_cons, List.not_mem_nil, or_false, not_or] at unknown
  obtain ⟨notList, notNamed⟩ := unknown
  unfold parseOptions
  split
  · contradiction
  · rename_i same
    exact absurd (List.cons.inj same).1 notList
  · rename_i same
    obtain ⟨rfl, rfl⟩ := List.cons.inj same
    rw [if_neg (not_or.mpr notNamed), if_pos dashed]

/-- Arguments that can be read do not ask for help or for the version. -/
theorem ne_of_parseOptions (parsed : parseOptions {} args = .ok options) :
    ∀ request ∈ ["--help", "-h", "--version", "-V"], args.head? ≠ some request := by
  intro request listed asked
  obtain ⟨rest, rfl⟩ := List.head?_eq_some_iff.mp asked
  have dashed : ∀ other ∈ ["--help", "-h", "--version", "-V"],
      other.toList.head? = some '-' ∧ other ∉ ["--list", "--lang", "-l"] := by decide
  obtain ⟨first, unknown⟩ := dashed request listed
  rw [parseOptions_of_unknown first unknown] at parsed
  contradiction

/-- Options that can be read are carried out, and a fault is printed. -/
theorem run_of_parseOptions (parsed : parseOptions {} args = .ok options) :
    run surroundings args =
      match runOptions surroundings options with
      | .ok outcome => outcome
      | .error fault => { code := 1, output := "", fault := some fault } := by
  have other := ne_of_parseOptions parsed
  simp only [List.forall_mem_cons] at other
  obtain ⟨notHelp, notShort, notVersion, notV, _⟩ := other
  rw [run, if_neg (not_or.mpr ⟨notHelp, notShort⟩), if_neg (not_or.mpr ⟨notVersion, notV⟩), parsed]
  rfl

/-- Only built-in grammars are chosen. -/
theorem mem_all_of_chooseGrammar {theme : Theme} {language : Option String}
    (chosen : chooseGrammar (Catalog.builtIn theme) language file = .ok (some grammar)) :
    grammar ∈ Languages.all theme := by
  unfold chooseGrammar at chosen
  split at chosen
  · exact Catalog.mem_all_of_detect? (Except.ok.inj chosen)
  · split at chosen
    · rename_i known found
      cases chosen
      exact Catalog.mem_all_of_find? found
    · contradiction

/-- A file that can be read is printed as it is shown. -/
theorem printFile_of_shown {settings : Settings} {catalog : Catalog} {language : Option String}
    (readable : surroundings.contentsOf file = .ok text)
    (chosen : chooseGrammar catalog language file = .ok (some grammar))
    (enabled : settings.enabled = true)
    {shown : List Char}
    (shows : showDocument surroundings.colors grammar (Document.ofText text) = (shown, none)) :
    printFile surroundings settings catalog language file =
      .ok { code := 0, output := String.ofList shown } := by
  rw [printFile, readable, chosen, enabled]
  dsimp only [Except.mapError, bind, Except.bind]
  rw [shows]
  rfl

/-- **The program shows the file.** If the file's language is known and highlighting is wanted, the program
succeeds and a terminal shows the text of the file, but for the ends of its lines, each character in the
styles of the sections around it. -/
theorem run_shows_file (surroundings : Surroundings) (args : List String) (options : Options)
    (file text : String) (grammar : Grammar)
    (parsed : parseOptions {} args = .ok options) (unlisted : options.list = false)
    (named : options.file = some file) (readable : surroundings.contentsOf file = .ok text)
    (plain : '\x1b' ∉ text.toList) (colors : surroundings.colors = true)
    (enabled : (Settings.load surroundings.settingsFile).enabled = true)
    (chosen : chooseGrammar (Catalog.builtIn (Settings.load surroundings.settingsFile).theme)
      options.language file = .ok (some grammar)) :
    (run surroundings args).code = 0 ∧ (run surroundings args).fault = none ∧
      ∃ styled : Nat → StyledLine,
        (∀ number, grammar.freshLine .empty (Document.ofText text) number = .ok (styled number)) ∧
        display (run surroundings args).output.toList =
          documentCells (Document.ofText text) styled ∧
        (display (run surroundings args).output.toList).map Cell.char =
          Document.normalizeLineEnds text.toList := by
  have solid := Languages.solid_of_mem_all (mem_all_of_chooseGrammar chosen)
  choose styled fresh using solid.exists_freshLine .empty (Document.ofText text)
  obtain ⟨completes, displays⟩ :=
    read_showDocument fresh fun number member => plain (Document.mem_of_mem_line_ofText member)
  have shows : showDocument surroundings.colors grammar (Document.ofText text) =
      ((showDocument true grammar (Document.ofText text)).1, none) := by
    rw [colors]
    exact Prod.ext rfl completes
  have outcome : run surroundings args =
      { code := 0
        output := String.ofList (showDocument true grammar (Document.ofText text)).1 } := by
    rw [run_of_parseOptions parsed, runOptions, unlisted, named, if_neg Bool.false_ne_true]
    dsimp only
    rw [printFile_of_shown readable chosen enabled shows]
  rw [outcome, String.toList_ofList, displays]
  refine ⟨rfl, rfl, styled, fresh, rfl, ?_⟩
  rw [char_documentCells, Document.joinLines_ofText]

/-- A file of two lines, named for its language. The settings file has an empty entry for a style. The
header is shown in bold and magenta, the key and the string in their colors, and the rest as the terminal
shows text by default. -/
theorem run_shows_file_toml :
    let surroundings : Surroundings :=
      ⟨some (.ok "[styles.string]"), fun _ => .ok "[t]\r\nv = \"é\"", true⟩
    (run surroundings ["a.toml"]).code = 0 ∧
      display (run surroundings ["a.toml"]).output.toList =
        plainCells { foreground := .magenta, bold := true } "[t]".toList ++ ⟨'\n', {}⟩ ::
          (plainCells { foreground := .yellow } "v".toList ++ plainCells {} " = ".toList ++
            plainCells { foreground := .green } "\"é\"".toList) := by
  intro surroundings
  let theme := (Settings.load surroundings.settingsFile).theme
  let document := Document.ofText "[t]\r\nv = \"é\""
  have detected : (Catalog.builtIn theme).detect? "a.toml" = some (Languages.Toml.grammar theme) :=
    rfl
  obtain ⟨code, _, styled, fresh, shown, _⟩ :=
    run_shows_file surroundings ["a.toml"] { file := some "a.toml" } "a.toml"
      "[t]\r\nv = \"é\"" (Languages.Toml.grammar theme) (by decide) rfl rfl rfl (by decide) rfl
      (by decide +kernel) (congrArg Except.ok detected)
  have first : styled 1 = ⟨1, 0, 3, [⟨0, 3, theme.token .keyword⟩]⟩ := by
    have scanned : (Languages.Toml.grammar theme).freshLine .empty document 1 =
        .ok ⟨1, 0, 3, [⟨0, 3, theme.token .keyword⟩]⟩ := by decide +kernel
    exact Except.ok.inj ((fresh 1).symm.trans scanned)
  have second : styled 2 = ⟨2, 4, 8, [⟨4, 1, theme.token .type⟩, ⟨8, 4, theme.token .string⟩]⟩ := by
    have scanned : (Languages.Toml.grammar theme).freshLine .empty document 2 =
        .ok ⟨2, 4, 8, [⟨4, 1, theme.token .type⟩, ⟨8, 4, theme.token .string⟩]⟩ := by
      decide +kernel
    exact Except.ok.inj ((fresh 2).symm.trans scanned)
  refine ⟨code, shown.trans ?_⟩
  show joinCells [lineCells (document.line 1) (styled 1), lineCells (document.line 2) (styled 2)] = _
  rw [first, second]
  decide +kernel

end Run

end Highlight.CommandLine
