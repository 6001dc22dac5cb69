import TextTables.Proofs.Session.Runs
import TextTables.Shell

/-!
# What happens in a run of the shell

A run of the shell is a sequence of events: prompts, replies of the shell itself, and commands that
it executes. The output is what the events print, one after the other, and the session and the disk
change as if the commands alone had been executed in their order.
-/

namespace TextTables

open Text

namespace Shell

/-- What the user sees of a run: a prompt, a reply of the shell, or a command and its response. -/
inductive Event where
  | prompted (prompt : String)
  | replied (reply : String)
  | executed (command : String) (response : Response)
deriving DecidableEq

namespace Event

/-- What the event prints. -/
def text : Event → String
  | prompted prompt => prompt
  | replied reply => reply
  | executed _ response => response.render ++ "\n"

def isPrompt : Event → Bool
  | prompted _ => true
  | _ => false

/-- The command that is executed, with its response. -/
def exchange? : Event → Option (String × Response)
  | executed command response => some (command, response)
  | _ => none

end Event

def printed (events : List Event) : String :=
  String.join (events.map Event.text)

def exchanges (events : List Event) : List (String × Response) :=
  events.filterMap Event.exchange?

/-- What happens when the shell takes a line, before the prompt. -/
def handle (shell : Shell) (line : List Char) (disk : Disk) : List Event :=
  if shell.pending = [] ∧ line.head? = some '.' then
    (shell.reply? (String.ofList line)).toList.map .replied
  else
    let command := extend shell.pending line
    if command.getLast? = some ';' then
      [.executed (String.ofList command) (shell.session.execute (String.ofList command) disk).1]
    else []

/-- What happens while the shell takes lines one by one. A line that is not text ends the run. -/
def events (shell : Shell) (disk : Disk) : List (Option String) → List Event
  | some line :: rest =>
      let next := shell.feed line disk
      shell.handle (trim line.toList) disk ++
        if next.continues then .prompted next.shell.prompt :: next.shell.events next.disk rest
        else []
  | _ => []

/-- The command that selects a database when the shell starts. -/
def startup (database : Option String) : List String :=
  database.toList.map fun name => "USE " ++ name ++ ";"

/-- What happens from the start of the shell to the end of the input. -/
def history (session : Session) (database : Option String) (lines : List (Option String))
    (disk : Disk) : List Event :=
  let turn := start session database disk
  (startup database).map (fun command => .executed command (session.execute command disk).1) ++
    .prompted turn.shell.prompt :: turn.shell.events turn.disk lines

/-- The session executes exactly the commands among the events, with their responses, and this takes
it and the disk to the next ones. -/
def Carries (session : Session) (disk : Disk) (events : List Event) (next : Session)
    (after : Disk) : Prop :=
  session.executeAll disk ((exchanges events).map Prod.fst) = (exchanges events, next, after)

@[simp]
theorem printed_append (first second : List Event) :
    printed (first ++ second) = printed first ++ printed second := by
  simp [printed]

@[simp]
theorem printed_cons (event : Event) (events : List Event) :
    printed (event :: events) = event.text ++ printed events := by
  simp [printed]

@[simp]
theorem printed_nil : printed [] = "" := rfl

@[simp]
theorem exchanges_append (first second : List Event) :
    exchanges (first ++ second) = exchanges first ++ exchanges second :=
  List.filterMap_append

namespace Carries

variable {session next last : Session} {disk after final : Disk} {events others : List Event}

theorem nil (session : Session) (disk : Disk) : Carries session disk [] session disk := rfl

theorem append (first : Carries session disk events next after)
    (second : Carries next after others last final) :
    Carries session disk (events ++ others) last final := by
  unfold Carries at first second ⊢
  rw [exchanges_append, List.map_append, Session.executeAll_append, first]
  dsimp only
  rw [second]

/-- Prompts and replies change nothing. -/
theorem of_exchanges_eq_nil (silent : exchanges events = []) :
    Carries session disk events session disk := by
  rw [Carries, silent]
  rfl

theorem executed (session : Session) (command : String) (disk : Disk) :
    Carries session disk [.executed command (session.execute command disk).1]
      (session.execute command disk).2.1 (session.execute command disk).2.2 := rfl

end Carries

variable {session : Session} {disk opened : Disk}

theorem execute_eq (shell : Shell) (command : String) (disk : Disk) :
    shell.execute command disk =
      ⟨(shell.session.execute command disk).1.render ++ "\n",
        ⟨(shell.session.execute command disk).2.1, []⟩,
        (shell.session.execute command disk).2.2, true⟩ := by
  unfold execute
  split
  rename_i executed
  rw [executed]

/-- A line prints what its events print, and changes what its command changes. -/
theorem take_eq (shell : Shell) (line : List Char) (disk : Disk) :
    (shell.take line disk).output = printed (shell.handle line disk) ∧
      Carries shell.session disk (shell.handle line disk) (shell.take line disk).shell.session
        (shell.take line disk).disk := by
  unfold take handle
  split
  · cases shell.reply? (String.ofList line) with
    | none => exact ⟨rfl, .nil _ _⟩
    | some reply => exact ⟨by simp [Event.text], .of_exchanges_eq_nil rfl⟩
  · dsimp only
    split
    · rw [execute_eq]
      exact ⟨by simp [Event.text], .executed _ _ _⟩
    · exact ⟨rfl, .nil _ _⟩

section

variable (shell : Shell) (line : String) (disk : Disk)

/-- The prompt comes last, and changes nothing. -/
theorem feed_eq :
    (shell.feed line disk).output = printed (shell.handle (trim line.toList) disk) ++
        (if (shell.feed line disk).continues then (shell.feed line disk).shell.prompt else "") ∧
      Carries shell.session disk (shell.handle (trim line.toList) disk)
        (shell.feed line disk).shell.session (shell.feed line disk).disk := by
  obtain ⟨output, carries⟩ := take_eq shell (trim line.toList) disk
  unfold feed
  dsimp only
  split
  · rw [output]
    exact ⟨rfl, carries⟩
  · rw [output, String.append_empty]
    exact ⟨rfl, carries⟩

end

/-- The lines print what their events print, and change what their commands change. -/
theorem runLines_eq (turn : Turn) (lines : List (Option String)) :
    (runLines turn lines).output =
        turn.output ++ printed (turn.shell.events turn.disk lines) ∧
      ∃ last, Carries turn.shell.session turn.disk (turn.shell.events turn.disk lines) last
        (runLines turn lines).disk := by
  induction lines generalizing turn with
  | nil => exact ⟨by simp [runLines, events], _, .nil _ _⟩
  | cons line rest inductionHypothesis =>
      cases line with
      | none => exact ⟨by simp [runLines, events], _, .nil _ _⟩
      | some line =>
          obtain ⟨output, carries⟩ := feed_eq turn.shell line turn.disk
          rw [runLines, events]
          dsimp only
          by_cases goesOn : (turn.shell.feed line turn.disk).continues
          · rw [if_pos goesOn, if_pos goesOn]
            rw [if_pos goesOn] at output
            obtain ⟨later, last, alsoCarries⟩ := inductionHypothesis
              { turn.shell.feed line turn.disk with
                output := turn.output ++ (turn.shell.feed line turn.disk).output }
            refine ⟨?_, last, carries.append alsoCarries⟩
            rw [later, output]
            simp [Event.text, String.append_assoc]
          · rw [if_neg goesOn, if_neg goesOn, List.append_nil]
            rw [if_neg goesOn, String.append_empty] at output
            rw [output]
            exact ⟨rfl, _, carries⟩

/-- The exit code is 0 if the input is text. -/
theorem exitCode_runLines (turn : Turn) (lines : List String) :
    (runLines turn (lines.map some)).exitCode = 0 := by
  induction lines generalizing turn with
  | nil => rfl
  | cons line rest inductionHypothesis =>
      rw [List.map_cons, runLines]
      dsimp only
      split
      · exact inductionHypothesis _
      · rfl

/-- The shell starts as if the command that selects a database had been typed. -/
theorem start_eq (session : Session) (database : Option String) (disk : Disk) :
    let events := (startup database).map fun command =>
      Event.executed command (session.execute command disk).1
    let turn := start session database disk
    turn.output = printed events ++ turn.shell.prompt ∧
      Carries session disk events turn.shell.session turn.disk := by
  cases database with
  | none => exact ⟨rfl, .nil _ _⟩
  | some name =>
      simp only [start, startup, execute_eq, Option.toList_some, List.map_cons, List.map_nil]
      exact ⟨by simp [Event.text], .executed _ _ _⟩

theorem serve_of_openAt {root : String}
    (opens : Session.openAt (Path.ofText root) disk = .ok session opened)
    (database : Option String) (input : ByteArray) :
    serve root database input disk =
      runLines (start session database opened) (inputLines input) := by
  unfold serve
  split
  · rename_i failed
    rw [opens] at failed
    cases failed
  · rename_i succeeds
    rw [opens] at succeeds
    cases succeeds
    rfl

/-- A run prints what its events print, and the disk is left as the executed commands leave it. -/
theorem serve_eq {root : String}
    (opens : Session.openAt (Path.ofText root) disk = .ok session opened)
    (database : Option String) (input : ByteArray) :
    (serve root database input disk).output =
        printed (history session database (inputLines input) opened) ∧
      ∃ last, Carries session opened (history session database (inputLines input) opened) last
        (serve root database input disk).disk := by
  obtain ⟨opening, carries⟩ := start_eq session database opened
  obtain ⟨output, last, alsoCarries⟩ :=
    runLines_eq (start session database opened) (inputLines input)
  rw [serve_of_openAt opens]
  refine ⟨?_, last, carries.append alsoCarries⟩
  rw [output, opening, history]
  simp [Event.text, String.append_assoc]

end Shell

end TextTables
