import TsxLint.Cli.Input

/-!
# The command line

The program reads a description of what is around it from its standard input and behaves as its
arguments ask.
-/

namespace TsxLint

/-- The lines of a stream, without the line feed at their end. -/
partial def readLines (stream : IO.FS.Stream) (read : List String) : IO (List String) := do
  let line ← stream.getLine
  if line.isEmpty then pure read.reverse
  else readLines stream ((Text.stripEnd? line "\n").getD line :: read)

/-- Behaves as told, and gives the exit code. -/
def Behaviour.perform (b : Behaviour) : IO UInt32 := do
  for line in b.output do IO.println line
  for line in b.errorOutput do IO.eprintln line
  pure (if b.succeeded then 0 else 1)

end TsxLint

/-- Runs the program. -/
def main (arguments : List String) : IO UInt32 := do
  let lines ← TsxLint.readLines (← IO.getStdin) []
  (TsxLint.Program.run (TsxLint.Surroundings.ofLines lines) arguments).perform
