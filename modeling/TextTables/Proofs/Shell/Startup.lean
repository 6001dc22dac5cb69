import TextTables.Proofs.Session.Sharing
import TextTables.Proofs.Shell.Events
import TextTables.Proofs.Statement.Selecting

/-!
# Starting the shell on a database

The shell can be started on any text in the place of a database. If the text is a name, the shell
selects that database or none, writes nothing but key counters of this database, and does not depend
on anything beside it. Any other text is refused before the disk is looked at.
-/

namespace TextTables

open Disk Location Text

/-- The places that do not matter to a database: they are not on the way to the store, and neither
at the place of the database nor below it. -/
def Disk.beside (disk : Disk) (root : Path) (database : String) : Set Location :=
  {place | place ∉ trail (disk.start root) root.segments ∧
    place ∉ zoneOf (disk.endOf root) database}

/-- A path that leads to the database keeps off everything beside it. -/
theorem Path.KeepsOff.of_beside {root : Path} {database : String} (proper : IsFileName database)
    (disk : Disk) :
    ((⟨root⟩ : Store).directory database).KeepsOff disk.home (disk.beside root database) := by
  apply Path.KeepsOff.of_join proper
  · intro other home passed member beside
    rw [start_congr home] at member
    exact beside.1 member
  · intro other home rest beside
    rw [endOf_congr home root] at beside
    exact beside.2 ⟨rest, by simp⟩

namespace Shell

/-- Started on a disk, the shell waits for a command with the database selected or none. Of the disk
it has changed only files with key counters of this database, and nothing beside the database makes
a difference to it. -/
structure OnlySelects (root : Path) (database : String) (begins : Disk → Turn) (disk : Disk) :
    Prop where
  waits : (begins disk).continues = true ∧ (begins disk).shell.pending = []
  store : (begins disk).shell.session.store = ⟨root⟩
  selected : ∀ held, (begins disk).shell.session.current = some held → held.name = database
  changes : AgreeOff (counterZone (disk.endOf root) database) disk (begins disk).disk ∧
    WritesFiles disk (begins disk).disk
  overlooks : ∀ other, AgreeOff (disk.beside root database) disk other →
    (begins other).output = (begins disk).output ∧ (begins other).shell = (begins disk).shell ∧
      AgreeOff (disk.beside root database) (begins disk).disk (begins other).disk

variable {root : Path} {name command database : String} {disk : Disk}

/-- The shell starts as its session executes the command that selects the database. -/
theorem start_some (session : Session) (name : String) (disk : Disk) :
    let executed := session.execute ("USE " ++ name ++ ";") disk
    start session (some name) disk =
      ⟨executed.1.render ++ "\n" ++ "tabdb> ", ⟨executed.2.1, []⟩, executed.2.2, true⟩ := by
  simp only [start, execute_eq]
  rfl

/-- Selecting a database puts key counters into files of the database, and does nothing else. -/
theorem changes_of_parse_use (session : Session) (tree : disk.IsTree)
    (reads : Statement.parse command = .ok (.use database)) :
    let after := (session.execute command disk).2.2
    AgreeOff (counterZone (disk.endOf session.store.root) database) disk after ∧
      WritesFiles disk after := by
  have named : IsName database := Statement.wellSpelled_of_parse reads
  rcases Session.execute_cases session command disk with ⟨error, failed, -⟩ |
    ⟨statement, outcome, parsed, -, effect, same⟩
  · cases failed.symm.trans reads
  cases parsed.symm.trans reads
  rw [same]
  cases effect with
  | refused => exact ⟨.refl _ _, .refl disk⟩
  | used =>
      rw [Session.disk_conclude]
      exact (Store.loadDatabase_changes tree rfl named).imp_left fun changes => changes.agree
  | changed changes => cases changes

/-- The shell that is started on a name selects its database or none. -/
theorem onlySelects_of_parse (tree : disk.IsTree)
    (reads : Statement.parse ("USE " ++ name ++ ";") = .ok (.use database)) :
    OnlySelects root database (start ⟨⟨root⟩, none⟩ (some name)) disk := by
  have named : IsName database := Statement.wellSpelled_of_parse reads
  have isOn : Session.IsOn root database ⟨⟨root⟩, none⟩ := ⟨rfl, nofun, .fresh _⟩
  have keeps : KeepsTo database ("USE " ++ name ++ ";") := by
    refine keepsTo_of_parse database reads ?_
    rintro _ ⟨⟩
    exact named.lower.symm
  have after := isOn.execute keeps disk
  constructor
  · rw [start_some]
    exact ⟨rfl, rfl⟩
  · rw [start_some]
    exact after.store
  · rw [start_some]
    intro held selected
    exact (after.own held selected).trans named.lower
  · rw [start_some]
    exact changes_of_parse_use ⟨⟨root⟩, none⟩ tree reads
  · intro other agree
    have off : IsName (lowercase database) →
        ((⟨root⟩ : Store).directory (lowercase database)).KeepsOff disk.home
          (disk.beside root database) := by
      rw [named.lower]
      exact fun _ => .of_beside named.isFileName disk
    have same := isOn.sameOff keeps off ⟨rfl, agree⟩ tree
    rw [start_some, start_some, ← same.response, ← same.session]
    exact ⟨rfl, rfl, same.disks.agree⟩

/-- The shell starts on the database that the text names, or refuses the text. -/
theorem start_database (root : Path) (name : String) :
    let command := "USE " ++ name ++ ";"
    let word := trim name.toList
    let database := lowercase (String.ofList word)
    let begins := start ⟨⟨root⟩, none⟩ (some name)
    (isPlain word ∧ Statement.parse command = .ok (.use database) ∧
        ∀ disk, disk.IsTree → OnlySelects root database begins disk) ∨
      isPlain word = false ∧ ∃ cause, Statement.parse command = .error (.badSyntax cause) ∧
        ∀ disk, begins disk =
          ⟨"[ERROR]: Invalid query: " ++ cause.message ++ "\n" ++ "tabdb> ",
            ⟨⟨⟨root⟩, none⟩, []⟩, disk, true⟩ := by
  intro command word database begins
  by_cases plain : isPlain word
  · have reads := Statement.parse_use_iff.mpr ⟨plain, rfl⟩
    exact .inl ⟨plain, reads, fun disk tree => onlySelects_of_parse tree reads⟩
  · right
    refine ⟨by simpa using plain, ?_⟩
    cases outcome : Statement.parse command with
    | ok statement => exact absurd (Statement.parse_use_iff.mp outcome).1 plain
    | error error =>
        obtain ⟨cause, rfl⟩ := Statement.parse_failsBySyntax command error outcome
        refine ⟨cause, rfl, fun disk => ?_⟩
        have refused : Session.execute ⟨⟨root⟩, none⟩ command disk =
            (.failed "Invalid query" (.badSyntax cause), ⟨⟨root⟩, none⟩, disk) := by
          simp only [Session.execute, outcome]
        rw [show begins disk = _ from start_some _ _ _, refused]
        rfl

/-- A name with blanks around it selects the database, and the counter of its table is written. A
name that goes on behind a semicolon is refused. -/
theorem start_database_padded :
    let root : Path := ⟨["r"]⟩
    let disk : Disk := ⟨[], [(["r"], .directory), (["r", "d"], .directory), (["r", "e"], .directory),
      (["r", "d", "t.tab"], .file "ID".toUTF8)]⟩
    let named := start ⟨⟨root⟩, none⟩ (some " D\n")
    let hostile := start ⟨⟨root⟩, none⟩ (some "d; DROP DATABASE d")
    disk.IsTree ∧ OnlySelects root "d" named disk ∧
      (named disk).shell.session.current = some ⟨"d", [⟨"t", ["ID"], [], 0⟩]⟩ ∧
      (named disk).disk.node? ["r", "d", "t_config.tab"] = some (.file "pk=0".toUTF8) ∧
      (hostile disk).shell.session.current = none ∧ (hostile disk).disk = disk := by
  intro root disk named hostile
  have tree : disk.IsTree := isTree_of_entries (by decide +kernel)
  refine ⟨tree, ?_, by decide +kernel, by decide +kernel, ?_⟩
  · obtain ⟨-, -, selects⟩ | ⟨refused, -⟩ := start_database root " D\n"
    · have lower : lowercase (String.ofList (trim " D\n".toList)) = "d" := by decide +kernel
      rw [lower] at selects
      exact selects disk tree
    · exact absurd refused (by decide +kernel)
  · obtain ⟨plain, -⟩ | ⟨-, cause, -, refused⟩ := start_database root "d; DROP DATABASE d"
    · exact absurd plain (by decide +kernel)
    · rw [show hostile disk = _ from refused disk]
      exact ⟨rfl, rfl⟩

end Shell

end TextTables
