/-
The command line: reads a dependency text from standard input and writes the
report on it to standard output, with the time that the language checks took.
-/
import DependencyTheory.Report

namespace DependencyTheory

/-- The lines that are left on a stream, behind what has been read. -/
partial def readLines (stream : IO.FS.Stream) (read : String) : IO String := do
  let line ← stream.getLine
  if line.isEmpty then return read else readLines stream (read ++ line)

end DependencyTheory

open DependencyTheory

/-- Reports on the text that stands on standard input. -/
def main : IO Unit := do
  let text ← readLines (← IO.getStdin) ""
  match Schema.ofText 0 text with
  | .error e => IO.print (Report.failure e)
  | .ok schema =>
    IO.print (Report.overview schema)
    let start ← IO.monoNanosNow
    IO.print (Report.languages schema)
    let stop ← IO.monoNanosNow
    IO.print (Report.timeLine (stop - start))
