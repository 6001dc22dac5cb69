import TextTables.Proofs.Shell.Lines
import TextTables.Proofs.Text.Lines

/-!
# Line breaks

However the commands of an input are broken into lines, the shell executes one command after the
other, each with the tokens that it was written with, and the responses and the disk are those of a
session that executes the commands themselves.
-/

namespace TextTables

open Text Token

namespace Shell

variable {line text : List Char} {lines : List (List Char)} {words : List Token}

/-- The lines of a text. A line feed at its end need not begin another line. -/
def AreLines (lines : List (List Char)) (text : List Char) : Prop :=
  lines = text.splitOn '\n' ∨ lines ++ [[]] = text.splitOn '\n'

theorem exists_inputLines (text : String) :
    ∃ lines, inputLines text.toUTF8 = received lines ∧ AreLines lines text.toList := by
  have decoded : ∀ lines : List (List Char),
      (lines.map bytes).map (fun piece => String.fromUTF8? ⟨piece.toArray⟩) = received lines := by
    intro lines
    rw [List.map_map]
    exact List.map_congr_left fun line _ => fromUTF8?_bytes line
  unfold inputLines
  rw [toList_toUTF8, splitOn_bytes]
  dsimp only
  split
  · rename_i ended
    rw [List.getLast?_map, Option.map_eq_some_iff] at ended
    obtain ⟨line, last, empty⟩ := ended
    obtain rfl := bytes_eq_nil.mp empty
    rw [← List.map_dropLast, decoded]
    exact ⟨_, rfl, .inr (List.dropLast_append_getLast? [] last)⟩
  · exact ⟨_, decoded _, .inl rfl⟩

/-- The lines of two texts with a line feed between them are those of the first and the second. -/
theorem AreLines.append {first rest : List Char} (cut : AreLines lines (first ++ '\n' :: rest)) :
    ∃ others, lines = first.splitOn '\n' ++ others ∧ AreLines others rest := by
  unfold AreLines at cut
  rw [List.splitOn_append_cons_self] at cut
  rcases cut with whole | ended
  · exact ⟨_, whole, .inl rfl⟩
  · obtain ⟨others, last, split⟩ :=
      (List.eq_nil_or_concat' (rest.splitOn '\n')).resolve_left (List.splitOn_ne_nil '\n' rest)
    rw [split, ← List.append_assoc] at ended
    obtain ⟨whole, same⟩ := List.append_inj' ended rfl
    exact ⟨others, whole, .inr (same ▸ split.symm)⟩

theorem AreLines.awaits (cut : AreLines lines text)
    (command : AreCommand (scanFrom false (trim text)) words) : Awaits [] lines words := by
  rcases cut with rfl | ended
  · exact awaits_of_areCommand command
  · obtain ⟨outside, closed, tokens, unfinished⟩ := ended ▸ awaits_of_areCommand command
    have nothing : (lines ++ [[]]).flatMap (scanFrom false) = lines.flatMap (scanFrom false) := by
      rw [List.flatMap_append, List.flatMap_singleton]
      exact List.append_nil _
    rw [nothing] at tokens unfinished
    exact ⟨outside, fun line member => closed line (List.mem_append_left _ member), tokens,
      unfinished⟩

/-- The event is the execution of a text that is read like the command, with the same response. -/
def Event.Executes (event : Event) (exchange : String × Response) : Prop :=
  ∃ text, event = .executed text exchange.2 ∧
    Statement.parse text = Statement.parse exchange.1

/-- The texts are the commands with other blanks in the places where they have blanks outside
literals, and with any blanks at their ends. -/
def AreSpread (commands texts : List String) : Prop :=
  List.Forall₂ (fun command text => squeezed text = squeezed command) commands texts

/-- The lines of one text have its command executed once. -/
theorem executes_one {command text : String} {statement : Statement}
    (accepted : Statement.parse command = .ok statement) (same : squeezed text = squeezed command)
    (cut : AreLines lines text.toList) (session : Session) (disk : Disk)
    (rest : List (Option String)) :
    ∃ given, Statement.parse given = Statement.parse command ∧
      withoutPrompts (events ⟨session, []⟩ disk (received lines ++ rest)) =
        .executed given (session.execute command disk).1 ::
          withoutPrompts (events ⟨(session.execute command disk).2.1, []⟩
            (session.execute command disk).2.2 rest) := by
  obtain ⟨words, tokens⟩ := Statement.areCommand_of_parse accepted
  have awaits := cut.awaits (scan_eq_of_squeezed same ▸ tokens)
  obtain ⟨given, spelled, executed⟩ :=
    @withoutPrompts_events_awaits lines words ⟨session, []⟩ disk rest awaits
  have alike := Statement.parse_congr (spelled.trans tokens.ended.symm)
  refine ⟨given, alike, ?_⟩
  rw [← Session.execute_congr session disk alike]
  exact executed

/-- On their lines the commands are executed in order, each as it would be by itself. -/
theorem executes_of_areLines {commands texts : List String} (session : Session) (disk : Disk)
    (accepted : ∀ command ∈ commands, ∃ statement, Statement.parse command = .ok statement)
    (spread : AreSpread commands texts) (nonempty : texts ≠ [])
    (cut : AreLines lines ("\n".intercalate texts).toList) :
    List.Forall₂ Event.Executes (withoutPrompts (events ⟨session, []⟩ disk (received lines)))
      (session.executeAll disk commands).1 := by
  induction spread generalizing session disk lines with
  | nil => exact absurd rfl nonempty
  | @cons command text commands texts same others inductionHypothesis =>
      obtain ⟨⟨statement, read⟩, alsoAccepted⟩ := List.forall_mem_cons.mp accepted
      simp only [Session.executeAll]
      cases texts with
      | nil =>
          cases others
          rw [String.intercalate_singleton] at cut
          obtain ⟨given, alike, executed⟩ := executes_one read same cut session disk []
          rw [List.append_nil] at executed
          rw [executed]
          exact .cons ⟨given, rfl, alike⟩ .nil
      | cons second further =>
          have whole : ("\n".intercalate (text :: second :: further)).toList =
              text.toList ++ '\n' :: ("\n".intercalate (second :: further)).toList := by
            simp [String.intercalate_cons_cons]
          rw [whole] at cut
          obtain ⟨later, rfl, alsoCut⟩ := cut.append
          obtain ⟨given, alike, executed⟩ :=
            executes_one read same (.inl rfl) session disk (received later)
          rw [received, List.map_append, ← received, ← received, executed]
          exact .cons ⟨given, rfl, alike⟩
            (inductionHypothesis _ _ alsoAccepted (List.cons_ne_nil _ _) alsoCut)

/-- The shell first executes what it is asked to when it starts. -/
theorem executes_history (session : Session) (database : Option String) (disk : Disk)
    {commands : List String} {lines : List (Option String)}
    (later : List.Forall₂ Event.Executes
      (withoutPrompts (events ⟨(start session database disk).shell.session, []⟩
        (start session database disk).disk lines))
      ((start session database disk).shell.session.executeAll (start session database disk).disk
        commands).1) :
    List.Forall₂ Event.Executes (withoutPrompts (history session database lines disk))
      (session.executeAll disk (startup database ++ commands)).1 := by
  cases database with
  | none => exact later
  | some name =>
      simp only [history, startup, start, execute_eq, Option.toList_some, List.map_cons,
        List.map_nil, List.singleton_append, withoutPrompts_executed, withoutPrompts_prompted,
        Session.executeAll] at later ⊢
      exact .cons ⟨_, rfl, rfl⟩ later

theorem exchanges_withoutPrompts (events : List Event) :
    exchanges (withoutPrompts events) = exchanges events := by
  induction events with
  | nil => rfl
  | cons event rest inductionHypothesis =>
      cases event with
      | prompted prompt => exact inductionHypothesis
      | replied reply => exact inductionHypothesis
      | executed command response => exact congrArg (List.cons _) inductionHypothesis

theorem parse_of_executes {events : List Event} {given : List (String × Response)}
    (executes : List.Forall₂ Event.Executes events given) :
    List.Forall₂ (fun first second => Statement.parse first = Statement.parse second)
      ((exchanges events).map Prod.fst) (given.map Prod.fst) := by
  induction executes with
  | nil => exact .nil
  | cons first others inductionHypothesis =>
      obtain ⟨text, rfl, alike⟩ := first
      exact .cons alike inductionHypothesis

/-- An input of spread commands is all executed, also if there are none. -/
theorem executes_of_spread {commands texts : List String}
    (accepted : ∀ command ∈ commands, ∃ statement, Statement.parse command = .ok statement)
    (spread : AreSpread commands texts) (session : Session) (disk : Disk) :
    List.Forall₂ Event.Executes
        (withoutPrompts (events ⟨session, []⟩ disk (inputLines ("\n".intercalate texts).toUTF8)))
        (session.executeAll disk commands).1 ∧
      ∃ lines, inputLines ("\n".intercalate texts).toUTF8 = received lines := by
  cases spread with
  | nil => exact ⟨.nil, [], rfl⟩
  | cons same others =>
      obtain ⟨lines, isInput, cut⟩ := exists_inputLines ("\n".intercalate (_ :: _))
      rw [isInput]
      exact ⟨executes_of_areLines session disk accepted (.cons same others) (List.cons_ne_nil _ _)
        cut, lines, rfl⟩

/-- Broken into lines in any way, with at least one blank of any kind wherever they have one outside
literals, accepted commands are executed in order, one text for each, which is read like it. Apart
from the prompts the output is the responses to the commands themselves, executed in the session
that was opened. The disk is as these leave it, and the exit code is 0. -/
theorem serve_ignores_line_breaks {root : String} {disk opened : Disk} {session : Session}
    {commands texts : List String}
    (opens : Session.openAt (Path.ofText root) disk = .ok session opened)
    (accepted : ∀ command ∈ commands, ∃ statement, Statement.parse command = .ok statement)
    (spread : AreSpread commands texts) (database : Option String) :
    let input := ("\n".intercalate texts).toUTF8
    let run := serve root database input disk
    let happened := history session database (inputLines input) opened
    let executed := session.executeAll opened (startup database ++ commands)
    run.output = printed happened ∧
      List.Forall₂ Event.Executes (withoutPrompts happened) executed.1 ∧
      run.disk = executed.2.2 ∧ run.exitCode = 0 := by
  obtain ⟨output, last, carries⟩ := serve_eq opens database ("\n".intercalate texts).toUTF8
  obtain ⟨executed, lines, isInput⟩ := executes_of_spread accepted spread
    (start session database opened).shell.session (start session database opened).disk
  have happened := executes_history session database opened executed
  refine ⟨output, happened, ?_, ?_⟩
  · have alike := parse_of_executes happened
    rw [exchanges_withoutPrompts, Session.map_fst_executeAll] at alike
    have same := Session.executeAll_congr session opened alike
    rw [carries] at same
    exact congrArg Prod.snd same
  · have texts : received lines = (lines.map String.ofList).map some := by
      rw [List.map_map]
      rfl
    rw [serve_of_openAt opens, isInput, texts]
    exact exitCode_runLines _ _

/-- Commands that make a database, select it and miss a table in it. -/
def plainCommands : List String :=
  ["CREATE DATABASE d;", "USE d;", "INSERT INTO t VALUES ('x  ;y', -1);"]

/-- The commands broken into lines, with blank lines in between. -/
def brokenCommands : List String :=
  ["\n\t CREATE\r\n\r\nDATABASE\n  d;\n", "USE\nd; ",
    "INSERT INTO\n\nt VALUES\n\t('x  ;y',\n -1);"]

/-- What a session on the directory `s` answers to the commands. -/
def plainResponses : List Response :=
  [.answered .done, .answered .done, .failed "Failed inserting into table" (.unknownTable "t")]

/-- The disk before the commands, and after them with the directory of the database. -/
def openedDisk (made : List (Location × Node)) : Disk :=
  ⟨[], (["s"], .directory) :: made⟩

theorem serve_ignores_line_breaks_broken :
    let input := ("\n".intercalate brokenCommands).toUTF8
    let run := serve "s" none input .empty
    let happened := history ⟨⟨⟨["s"]⟩⟩, none⟩ none (inputLines input) (openedDisk [])
    AreSpread plainCommands brokenCommands ∧ run.output = printed happened ∧
      List.Forall₂ Event.Executes (withoutPrompts happened) (plainCommands.zip plainResponses) ∧
      run.disk = openedDisk [(["s", "d"], .directory)] ∧ run.exitCode = 0 := by
  dsimp only
  have opens : Session.openAt (Path.ofText "s") .empty = .ok ⟨⟨⟨["s"]⟩⟩, none⟩ (openedDisk []) := by
    decide +kernel
  have accepted : ∀ command ∈ plainCommands,
      ∃ statement, Statement.parse command = .ok statement := by
    simp only [plainCommands, List.forall_mem_cons]
    exact ⟨⟨.createDatabase "d", by decide +kernel⟩, ⟨.use "d", by decide +kernel⟩,
      ⟨.insert "t" [⟨"'x  ;y'", .string⟩, ⟨"-1", .integer⟩], by decide +kernel⟩, by simp⟩
  have spread : AreSpread plainCommands brokenCommands :=
    .cons (by decide +kernel) (.cons (by decide +kernel) (.cons (by decide +kernel) .nil))
  have creates : Session.execute ⟨⟨⟨["s"]⟩⟩, none⟩ "CREATE DATABASE d;" (openedDisk []) =
      (.answered .done, ⟨⟨⟨["s"]⟩⟩, none⟩, openedDisk [(["s", "d"], .directory)]) := by
    decide +kernel
  have uses : Session.execute ⟨⟨⟨["s"]⟩⟩, none⟩ "USE d;" (openedDisk [(["s", "d"], .directory)]) =
      (.answered .done, ⟨⟨⟨["s"]⟩⟩, some ⟨"d", []⟩⟩, openedDisk [(["s", "d"], .directory)]) := by
    decide +kernel
  have fails : Session.execute ⟨⟨⟨["s"]⟩⟩, some ⟨"d", []⟩⟩ "INSERT INTO t VALUES ('x  ;y', -1);"
      (openedDisk [(["s", "d"], .directory)]) =
      (.failed "Failed inserting into table" (.unknownTable "t"), ⟨⟨⟨["s"]⟩⟩, some ⟨"d", []⟩⟩,
        openedDisk [(["s", "d"], .directory)]) := by
    decide +kernel
  have executed : Session.executeAll ⟨⟨⟨["s"]⟩⟩, none⟩ (openedDisk [])
      (startup none ++ plainCommands) = (plainCommands.zip plainResponses,
        ⟨⟨⟨["s"]⟩⟩, some ⟨"d", []⟩⟩, openedDisk [(["s", "d"], .directory)]) := by
    simp only [startup, Option.toList_none, List.map_nil, List.nil_append, plainCommands,
      Session.executeAll, creates, uses, fails]
    rfl
  have ran := serve_ignores_line_breaks opens accepted spread none
  dsimp only at ran
  rw [executed] at ran
  exact ⟨spread, ran⟩

end Shell

end TextTables
