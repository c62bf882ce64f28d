import RuleBlocks.CommandLine

/-!
# The program

Reads the file that the command line names, runs the command line on its content, and prints what
it leaves behind.
-/

namespace RuleBlocks

/-- What is found at a path. -/
def readContent (path : String) : IO FileContent := do
  try
    return .bytes (← IO.FS.readBinFile path)
  catch error =>
    match error with
    | .noFileOrDirectory .. => return .missing
    | error => return .unreadable (toString error)

end RuleBlocks

/-- Run the command line. -/
def main (arguments : List String) : IO UInt32 := do
  match RuleBlocks.CommandLine.parse? arguments with
  | none =>
    IO.eprintln "usage: program.json [-p] [-t] [-s] [-g CATEGORY:NAME] [-a USER=CANONICAL] [-j]"
    return 2
  | some (path, arguments) =>
    let outcome := RuleBlocks.CommandLine.run path arguments (← RuleBlocks.readContent path)
    IO.print outcome.output
    IO.eprint outcome.errors
    return outcome.code.toUInt32
