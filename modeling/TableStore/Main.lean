import TableStore.Shell

/-!
# The program

Runs the shell on the standard streams.
-/

namespace TableStore.Shell

/-- The bytes of the next line, with the line feed that ends it; none at the end of the input. -/
partial def readLine (input : IO.FS.Stream) (line : ByteArray) : IO (List UInt8) := do
  let byte ← input.read 1
  let line := line ++ byte
  if byte.isEmpty || byte.toList = [0x0a] then return line.toList
  else readLine input line

/-- Reads lines until one of them ends the shell. -/
partial def readLines (json : Bool) (catalog : Catalog) : IO Ending := do
  let output ← IO.getStdout
  output.putStr prompt
  output.flush
  let line ← readLine (← IO.getStdin) .empty
  match if line.isEmpty then .stop .endOfInput else react json catalog (.ofBytes line) with
  | .stop ending =>
    output.putStr ending.output
    output.flush
    return ending
  | .goOn catalog text =>
    output.putStr text
    readLines json catalog

/-- The shell on the standard streams. -/
def onStreams (arguments : List String) : IO UInt32 := do
  match Options.unset.read arguments with
  | none =>
    IO.eprint usage
    return 2
  | some options =>
    match options.statement with
    | some text =>
      let outcome := runStatement options.json options.start text
      IO.print outcome.output
      return outcome.exitCode.toUInt32
    | none =>
      let (complaint, exitCode) := (← readLines options.json options.start).verdict
      IO.eprint complaint
      return exitCode.toUInt32

end TableStore.Shell

/-- Runs the shell and ends with its exit code. -/
def main (arguments : List String) : IO UInt32 :=
  TableStore.Shell.onStreams arguments
