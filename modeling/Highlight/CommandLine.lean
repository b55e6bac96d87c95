import Highlight.Catalog.Basic
import Highlight.Session.Perform
import Highlight.Settings
import Highlight.Terminal

/-! # The command line

The program prints a file with syntax highlighting. What it reads of its surroundings is given to it: the
settings file, the files it may be asked for, and whether colors are wanted.
-/

namespace Highlight.CommandLine

/-- What the program is asked to do, beyond showing help or its version. -/
structure Options where
  language : Option String := none
  list : Bool := false
  file : Option String := none
  deriving DecidableEq

/-- Why the program fails. -/
inductive Fault where
  | languageMissing
  | unknownOption (option : String)
  | secondFile
  | unknownLanguage (name : String)
  | file (fault : FileFault)
  | session (failure : Session.Failure)
  deriving DecidableEq

/-- A description of the fault. -/
def Fault.message : Fault → String
  | languageMissing => "Config error: --lang needs a language name"
  | unknownOption option => "Config error: unknown option: " ++ option
  | secondFile => "Config error: only one FILE may be given"
  | unknownLanguage name => "Config error: unknown language: " ++ name
  | file fault => fault.message
  | session failure => failure.message

/-- The program's surroundings. The settings file is `none` where there is no home directory. -/
structure Surroundings where
  settingsFile : Option (Except FileFault String)
  contentsOf : String → Except FileFault String
  colors : Bool

/-- What the program leaves behind: its exit code, its output, and the fault it reports. -/
structure Outcome where
  code : Nat
  output : String
  fault : Option Fault := none

/-- The program's name and version. -/
def version : String := "spanlight 0.1.0"

/-- How to use the program. -/
def usage : String :=
  version ++ " - incremental syntax highlighter\n\n" ++
    "Usage: spanlight [OPTIONS] FILE\n\n" ++
    "Options:\n" ++
    "  -l, --lang NAME  Highlight as NAME instead of detecting from the extension\n" ++
    "      --list       List available languages\n" ++
    "  -h, --help       Show this help message\n" ++
    "  -V, --version    Show version information\n\n" ++
    "Styles are read from ~/.spanlight.toml.\n" ++
    "Set SPANLIGHT_LOG=debug to trace invalidation and replay.\n"

/-- Reads the arguments that follow those already read. -/
def parseOptions (options : Options) : List String → Except Fault Options
  | [] => .ok options
  | "--list" :: rest => parseOptions { options with list := true } rest
  | arg :: rest =>
    if arg = "--lang" ∨ arg = "-l" then
      match rest with
      | [] => .error .languageMissing
      | name :: rest => parseOptions { options with language := some name } rest
    else if arg.toList.head? = some '-' then .error (.unknownOption arg)
    else if options.file.isSome then .error .secondFile
    else parseOptions { options with file := some arg } rest

/-- The grammar to use for a file: the one asked for by name, or else the one for its extension. -/
def chooseGrammar (catalog : Catalog) (language : Option String) (file : String) :
    Except Fault (Option Grammar) :=
  match language with
  | none => .ok (catalog.detect? file)
  | some name =>
    match catalog.find? name with
    | some grammar => .ok (some grammar)
    | none => .error (.unknownLanguage name)

/-- Shows the lines with the given numbers. Gives what could be shown and the failure that ended it. -/
def showLines (colors : Bool) : List Nat → Session → List Char × Option Session.Failure
  | [], _ => ([], none)
  | number :: rest, session =>
    match session.highlight (Session.reaction Session.nestingLimit) number with
    | (_, .error failure) => ([], some failure)
    | (session, .ok line) =>
      let shown := Terminal.showLine colors (session.document.line number) line
      let feed := if number < session.document.lineCount then ['\n'] else []
      let (others, failure) := showLines colors rest session
      (shown ++ feed ++ others, failure)

/-- Shows a document in the styles of a grammar. -/
def showDocument (colors : Bool) (grammar : Grammar) (document : Document) :
    List Char × Option Session.Failure :=
  showLines colors (List.range' 1 document.lineCount)
    (Session.start grammar document).beginBatch.1

/-- Prints the file with the given name. -/
def printFile (surroundings : Surroundings) (settings : Settings) (catalog : Catalog)
    (language : Option String) (file : String) : Except Fault Outcome := do
  let text ← (surroundings.contentsOf file).mapError .file
  let grammar ← chooseGrammar catalog language file
  let document := Document.ofText text
  match grammar, settings.enabled with
  | some grammar, true =>
    match showDocument surroundings.colors grammar document with
    | (shown, none) => return { code := 0, output := String.ofList shown }
    | (shown, some failure) =>
      return { code := 1, output := String.ofList shown, fault := some (.session failure) }
  | _, _ => return { code := 0, output := document.text }

/-- Carries out the options. -/
def runOptions (surroundings : Surroundings) (options : Options) : Except Fault Outcome :=
  let settings := Settings.load surroundings.settingsFile
  let catalog := Catalog.builtIn settings.theme
  if options.list then
    .ok { code := 0, output := String.join (catalog.names.map fun name => name ++ "\n") }
  else
    match options.file with
    | none => .ok { code := 2, output := usage }
    | some file => printFile surroundings settings catalog options.language file

/-- Runs the program. Help and the version are asked for by the first argument. -/
def run (surroundings : Surroundings) (args : List String) : Outcome :=
  let first := args.head?
  if first = some "--help" ∨ first = some "-h" then { code := 0, output := usage }
  else if first = some "--version" ∨ first = some "-V" then { code := 0, output := version ++ "\n" }
  else
    match (parseOptions {} args).bind (runOptions surroundings) with
    | .ok outcome => outcome
    | .error fault => { code := 1, output := "", fault := some fault }

end Highlight.CommandLine
