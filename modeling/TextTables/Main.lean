import TextTables.Shell

/-!
# The program

The shell at a terminal. The disk is a value that goes from turn to turn and starts empty, so
files live as long as the program runs.
-/

namespace TextTables.Shell

/-- The bytes up to the next line feed, or nothing at the end of the input. -/
partial def readLine (input : IO.FS.Stream) (line : ByteArray) : IO (Option ByteArray) := do
  let next ← input.read 1
  if next.isEmpty then return if line.isEmpty then none else some line
  if next == "\n".toUTF8 then return some line
  readLine input (line ++ next)

/-- Prints what a turn printed, and takes the next line if the shell goes on. -/
partial def converse (turn : Turn) : IO UInt32 := do
  IO.print turn.output
  (← IO.getStdout).flush
  if !turn.continues then return 0
  match ← readLine (← IO.getStdin) .empty with
  | none => return 0
  | some bytes =>
      match String.fromUTF8? bytes with
      | some line => converse (turn.shell.feed line turn.disk)
      | none =>
          IO.eprintln "cannot read from stdin"
          return 1

/-- Runs a command line and answers with its exit code. -/
def runProgram (arguments : List String) (environment : Option String) : IO UInt32 := do
  match Invocation.parse? arguments with
  | none =>
      IO.eprintln "usage: tabdb [--root DIR] [DATABASE]"
      return 2
  | some .showVersion =>
      IO.println version
      return 0
  | some (.serve root database) =>
      let root := chooseRoot root environment
      match Session.openAt (Path.ofText root) Disk.empty with
      | .error error _ =>
          IO.eprintln ("cannot open storage root " ++ root ++ ": " ++ error.message)
          return 1
      | .ok session disk => converse (start session database disk)

end TextTables.Shell

def main (arguments : List String) : IO UInt32 := do
  TextTables.Shell.runProgram arguments (← IO.getEnv TextTables.Shell.rootVariable)
