/-
  NetBoard.Main
  ─────────────
  **THE PROGRAM.**

  Read the file the command line needs, print the report, and exit.
-/
import NetBoard.CommandLine.Command

open NetBoard

/-- The text of a file, or the reason why it cannot be read. -/
def readContent (path : String) : IO (Except String String) := do
  try
    return .ok (← IO.FS.readFile path)
  catch
    | .noFileOrDirectory .. => return .error "No such file or directory (os error 2)"
    | e => return .error (toString e)

/-- The program. -/
def main (words : List String) : IO UInt32 := do
  let content ← match Command.file? words with
    | some path => readContent path
    | none => pure (.ok "")
  let report := Command.report words content
  (← IO.getStdout).putStr report.output
  (← IO.getStderr).putStr report.errors
  return report.status
