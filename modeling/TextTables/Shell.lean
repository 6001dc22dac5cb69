import TextTables.Session
import TextTables.Shell.Arguments

/-!
# The interactive shell

The shell reads lines and puts them together until one ends with a semicolon; then it executes
what it has. A line that starts with a point, where no command has begun, is for the shell
itself. After each line comes a prompt, which tells whether a command has begun.
-/

namespace TextTables

open Text

/-- The bytes of text that the tables of the database hold. -/
def Database.textSize (database : Database) : Nat :=
  let cells := database.tables.flatMap fun table => (table.columns :: table.rows).flatten
  cells.foldl (fun size cell => size + cell.utf8ByteSize) 0

/-- A session and the command that has begun. -/
structure Shell where
  session : Session
  pending : List Char
deriving DecidableEq

namespace Shell

def version : String := "tabdb 0.1.0"

/-- The directory of the store if none is named. -/
def defaultRoot : String := "databases"

/-- The name under which the environment names the directory of the store. -/
def rootVariable : String := "TABDB_ROOT"

def prompt (shell : Shell) : String :=
  if shell.pending = [] then "tabdb> " else "   ...> "

/-- What a line leads to: the output, the state, and whether the shell goes on. -/
structure Turn where
  output : String
  shell : Shell
  disk : Disk
  continues : Bool

/-- The shell executes a command, and the response ends its line. -/
def execute (shell : Shell) (command : String) (disk : Disk) : Turn :=
  let (response, session, disk) := shell.session.execute command disk
  ⟨response.render ++ "\n", ⟨session, []⟩, disk, true⟩

/-- The answer to a line for the shell itself, or nothing if the shell is to end. -/
def reply? (shell : Shell) (word : String) : Option String :=
  if word = ".exit" ∨ word = ".quit" then none
  else if word = ".tables" then
    match shell.session.current with
    | some database => some (String.join (database.tableNames.map fun name => name ++ "\n"))
    | none => some "no database selected\n"
  else if word = ".memory" then
    match shell.session.current with
    | some database => some (toString database.textSize ++ " bytes\n")
    | none => some "no database selected\n"
  else some ("unknown meta command " ++ word ++ "\n")

/-- The command that has begun, with one more line. -/
def extend (pending line : List Char) : List Char :=
  if line = [] then pending
  else if pending = [] then line
  else pending ++ ' ' :: line

/-- Takes a line, before the prompt. -/
def take (shell : Shell) (line : List Char) (disk : Disk) : Turn :=
  if shell.pending = [] ∧ line.head? = some '.' then
    match shell.reply? (String.ofList line) with
    | some reply => ⟨reply, shell, disk, true⟩
    | none => ⟨"", shell, disk, false⟩
  else
    let pending := extend shell.pending line
    if pending.getLast? = some ';' then shell.execute (String.ofList pending) disk
    else ⟨"", { shell with pending := pending }, disk, true⟩

/-- Takes a line and prompts for the next one, if the shell goes on. -/
def feed (shell : Shell) (line : String) (disk : Disk) : Turn :=
  let turn := shell.take (trim line.toList) disk
  if turn.continues then { turn with output := turn.output ++ turn.shell.prompt } else turn

/-- The shell starts, and selects a database if it is asked to. -/
def start (session : Session) (database : Option String) (disk : Disk) : Turn :=
  let shell : Shell := ⟨session, []⟩
  let turn :=
    match database with
    | some name => shell.execute ("USE " ++ name ++ ";") disk
    | none => ⟨"", shell, disk, true⟩
  { turn with output := turn.output ++ turn.shell.prompt }

/-- What a whole run leaves: all that was printed, the exit code, and the disk. -/
structure Transcript where
  output : String
  exitCode : Nat
  disk : Disk

/-- Takes the lines one by one. A line that is not text ends the run with an error. -/
def runLines (turn : Turn) : List (Option String) → Transcript
  | [] => ⟨turn.output, 0, turn.disk⟩
  | none :: _ => ⟨turn.output, 1, turn.disk⟩
  | some line :: rest =>
      let next := turn.shell.feed line turn.disk
      let printed := { next with output := turn.output ++ next.output }
      if next.continues then runLines printed rest else ⟨printed.output, 0, printed.disk⟩

/-- The lines of the input; what is not text has no line. -/
def inputLines (input : ByteArray) : List (Option String) :=
  let pieces := input.data.toList.splitOn 10
  let ended := if pieces.getLast? = some [] then pieces.dropLast else pieces
  ended.map fun piece => String.fromUTF8? ⟨piece.toArray⟩

/-- Runs the shell on a directory. -/
def serve (root : String) (database : Option String) (input : ByteArray) (disk : Disk) :
    Transcript :=
  match Session.openAt (Path.ofText root) disk with
  | .error _ disk => ⟨"", 1, disk⟩
  | .ok session disk => runLines (start session database disk) (inputLines input)

/-- The directory of the store: from the arguments, else from the environment. -/
def chooseRoot (argument environment : Option String) : String :=
  (argument <|> environment).getD defaultRoot

/-- Runs a command line, which has exit code 2 if it is malformed. -/
def runCommandLine (arguments : List String) (environment : Option String) (input : ByteArray)
    (disk : Disk) : Transcript :=
  match Invocation.parse? arguments with
  | none => ⟨"", 2, disk⟩
  | some .showVersion => ⟨version ++ "\n", 0, disk⟩
  | some (.serve root database) => serve (chooseRoot root environment) database input disk

end Shell

end TextTables
