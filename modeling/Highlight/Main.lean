import Highlight.CommandLine

/-! # The program

Reads the program's surroundings and hands them to the command line.
-/

open Highlight

/-- Reads a text file. -/
def readTextFile (path : String) : IO (Except FileFault String) := do
  try
    let bytes ← IO.FS.readBinFile path
    return match String.fromUTF8? bytes with
      | some text => .ok text
      | none => .error .notText
  catch
    | .inappropriateType .. => return .error .isDirectory
    | _ => return .error .notFound

/-- Runs the program with the given arguments. -/
def main (args : List String) : IO UInt32 := do
  let settingsFile ← (← IO.getEnv "HOME").mapM fun home => readTextFile (home ++ "/.spanlight.toml")
  let wanted := (CommandLine.parseOptions {} args).toOption.bind CommandLine.Options.file
  let content ← readTextFile (wanted.getD "")
  let outcome := CommandLine.run
    { settingsFile := settingsFile
      contentsOf := fun _ => content
      colors := ((← IO.getEnv "NO_COLOR").getD "").isEmpty } args
  IO.print outcome.output
  (← IO.getStdout).flush
  if let some fault := outcome.fault then IO.eprintln ("Error: " ++ fault.message)
  return UInt32.ofNat outcome.code
