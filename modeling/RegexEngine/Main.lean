import RegexEngine.Filter

/-!
# The line filter as a program

The program reads the standard input to its end, runs the filter on it and
writes the report.
-/

namespace RegexEngine

/-- Reads a stream to its end. -/
partial def readBytes (stream : IO.FS.Stream) (sofar : ByteArray) : IO ByteArray := do
  let chunk ← stream.read 65536
  if chunk.isEmpty then return sofar
  readBytes stream (sofar ++ chunk)

end RegexEngine

/-- Runs the filter on the standard input. -/
def main (arguments : List String) : IO UInt32 := do
  let input ← RegexEngine.readBytes (← IO.getStdin) .empty
  let report := RegexEngine.Filter.run arguments input.toList
  (← IO.getStdout).putStr report.output
  (← IO.getStderr).putStr report.diagnostics
  if report.fault.isSome then
    (← IO.getStderr).putStrLn "error: the search has no answer"
  return report.code.toUInt32
