import TextTables.Proofs.Session.Visits
import TextTables.Proofs.Store.Headers

/-!
# Sessions whose tables start with the primary key

New tables start with the primary key, and commands keep it in its place. A table that is read
starts with whatever its file does, since no header is refused for another first column. So all
tables of a session start with the primary key exactly if the headers of all files do that it has
selected.
-/

namespace TextTables

open Text

/-- The statement alters the columns of a table or updates its cells. -/
def Statement.Rewrites : Statement → Prop
  | alter _ _ _ => True
  | update _ _ _ => True
  | _ => False

namespace Table

theorem SameKeyColumn.refl (table : Table) : SameKeyColumn table table :=
  ⟨rfl, rfl⟩

variable {table changed : Table} {statement : Statement} {name : String}
  {change : Table → Except SchemaError Table}

theorem sameKeyColumn_of_change (regular : table.Regular) (keyed : table.Keyed)
    (rewrites : statement.Rewrites) (changes : statement.change? = some (name, change))
    (done : change table = .ok changed) : SameKeyColumn table changed := by
  rcases Statement.change?_cases changes with ⟨alteration, column, rfl, rfl⟩ |
    ⟨values, rfl, rfl⟩ | ⟨assignments, condition, rfl, rfl⟩ | ⟨condition, rfl, rfl⟩
  · cases alteration with
    | add => exact sameKeyColumn_addColumn regular keyed done
    | drop => exact sameKeyColumn_dropColumn keyed done
  · exact rewrites.elim
  · exact sameKeyColumn_update keyed done
  · exact rewrites.elim

theorem Keyed.of_columns (keyed : table.Keyed) (same : changed.columns = table.columns) :
    changed.Keyed := by
  unfold Keyed
  rw [same]
  exact keyed

theorem lasting_keyed : Lasting fun table => table.Regular ∧ table.Keyed where
  made spelled shaped := by
    refine ⟨lasting_regular.made spelled shaped, ?_⟩
    obtain ⟨-, -, rfl⟩ := withColumns_eq_ok shaped
    exact ⟨primaryKey, rfl, sameIgnoringCase_self _⟩
  changed spelled changes := by
    rintro ⟨regular, keyed⟩ done
    refine ⟨lasting_regular.changed spelled changes regular done, ?_⟩
    rcases Statement.change?_cases changes with ⟨alteration, column, rfl, rfl⟩ |
      ⟨values, rfl, rfl⟩ | ⟨assignments, condition, rfl, rfl⟩ | ⟨condition, rfl, rfl⟩
    · cases alteration with
      | add => exact keyed.of_sameKeyColumn (sameKeyColumn_addColumn regular keyed done)
      | drop => exact keyed.of_sameKeyColumn (sameKeyColumn_dropColumn keyed done)
    · obtain ⟨-, rfl⟩ := insert_eq_ok done
      exact keyed.of_columns rfl
    · exact keyed.of_sameKeyColumn (sameKeyColumn_update keyed done)
    · obtain ⟨mask, -, replaced⟩ := delete_eq_ok done
      obtain ⟨-, rfl⟩ := replaceRows_eq_ok replaced
      exact keyed.of_columns rfl

end Table

namespace Session

/-- After every command, all tables of the session start with the primary key. -/
def StaysKeyed (session : Session) : List (String × Disk) → Prop
  | [] => session.Holds Table.Keyed
  | (command, disk) :: visits =>
      session.Holds Table.Keyed ∧ (session.execute command disk).2.1.StaysKeyed visits

/-- Every directory that is selected holds only tables whose headers start with the primary key. -/
def SelectsKeyed (session : Session) : List (String × Disk) → Prop
  | [] => True
  | (command, disk) :: visits =>
      (∀ name, Statement.parse command = .ok (.use name) →
        (session.execute command disk).1 = .answered .done →
          disk.HasKeyHeaders (session.store.directory name)) ∧
      (session.execute command disk).2.1.SelectsKeyed visits

variable {session : Session} {command name : String} {disk : Disk} {visits : List (String × Disk)}

/-- A database that is selected has been loaded. -/
theorem loaded_of_answered (reads : Statement.parse command = .ok (.use name))
    (answered : (session.execute command disk).1 = .answered .done) :
    ∃ database after, session.store.loadDatabase name disk = .ok database after ∧
      (session.execute command disk).2.1.current = some database := by
  rcases execute_cases session command disk with ⟨error, failed, -⟩ |
    ⟨statement, outcome, parsed, -, effect, same⟩
  · cases failed.symm.trans reads
  cases parsed.symm.trans reads
  rw [same] at answered ⊢
  cases effect with
  | refused statement error => cases answered
  | changed changes => cases changes
  | used name =>
      cases loaded : session.store.loadDatabase name disk with
      | error error after =>
          rw [loaded] at answered
          cases answered
      | ok database after => exact ⟨database, after, rfl, rfl⟩

theorem StaysKeyed.holds (stays : session.StaysKeyed visits) : session.Holds Table.Keyed := by
  cases visits with
  | nil => exact stays
  | cons visit visits => exact stays.1

theorem staysKeyed_iff_of_holds (regular : session.Holds Table.Regular)
    (keyed : session.Holds Table.Keyed) :
    session.StaysKeyed visits ↔ session.SelectsKeyed visits := by
  induction visits generalizing session with
  | nil => exact iff_of_true keyed trivial
  | cons visit visits inductionHypothesis =>
      obtain ⟨command, disk⟩ := visit
      have further := regular.regular command disk
      constructor
      · rintro ⟨-, stays⟩
        refine ⟨fun name reads answered => ?_, (inductionHypothesis further stays.holds).mp stays⟩
        obtain ⟨database, after, loaded, selected⟩ := loaded_of_answered reads answered
        exact (Store.keyed_iff_of_loadDatabase loaded).mp (stays.holds database selected)
      · rintro ⟨headers, selects⟩
        have both : session.Holds fun table => table.Regular ∧ table.Keyed :=
          fun database selected table member =>
            ⟨regular database selected table member, keyed database selected table member⟩
        have reads : session.Reads command disk fun table => table.Regular ∧ table.Keyed := by
          intro name database after parsed loaded answered table member
          have fine := (Store.keyed_iff_of_loadDatabase loaded).mpr (headers name parsed answered)
          exact ⟨Store.regular_of_loadDatabase loaded table member, fine table member⟩
        have next := both.execute Table.lasting_keyed reads
        have nextKeyed : (session.execute command disk).2.1.Holds Table.Keyed :=
          fun database selected table member => (next database selected table member).2
        exact ⟨keyed, (inductionHypothesis further nextKeyed).mpr selects⟩

/-- A session whose tables start with the primary key alters no first column. -/
theorem sameKeyColumn_of_execute (regular : session.Holds Table.Regular)
    (keyed : session.Holds Table.Keyed) {statement : Statement}
    (reads : Statement.parse command = .ok statement) (rewrites : statement.Rewrites) :
    ∀ database, (session.execute command disk).2.1.current = some database →
      ∃ before, session.current = some before ∧ ∀ table ∈ database.tables,
        ∃ old ∈ before.tables, old.key = table.key ∧ old.SameKeyColumn table := by
  intro database selected
  have unchanged : ∀ before, session.current = some before → ∀ table ∈ before.tables,
      ∃ old ∈ before.tables, old.key = table.key ∧ old.SameKeyColumn table :=
    fun before _ table member => ⟨table, member, rfl, .refl table⟩
  cases selects_of_execute selected with
  | kept before => exact ⟨database, before, unchanged database before⟩
  | loaded parsed | created parsed | removed parsed =>
      cases parsed.symm.trans reads
      exact rewrites.elim
  | @changed _ _ _ before table changed parsed changes current found done =>
      cases parsed.symm.trans reads
      refine ⟨before, current, fun other member => ?_⟩
      obtain ⟨present, -⟩ := Database.table_eq_ok found
      have kept := Table.sameKeyColumn_of_change (regular before current table present)
        (keyed before current table present) rewrites changes done
      obtain ⟨old, inside, rfl⟩ := List.mem_map.mp member
      split
      · have same := (Table.name_of_change changes done).1
        exact ⟨table, present, by rw [Table.key, Table.key, same], kept⟩
      · exact ⟨old, inside, rfl, .refl old⟩

theorem StaysKeyed.last (stays : session.StaysKeyed visits)
    (regular : session.Holds Table.Regular) :
    (session.executeEach visits).2.Holds Table.Regular ∧
      (session.executeEach visits).2.Holds Table.Keyed := by
  induction visits generalizing session with
  | nil => exact ⟨regular, stays⟩
  | cons visit visits inductionHypothesis =>
      exact inductionHypothesis stays.2 (regular.regular visit.1 visit.2)

/-- All tables start with the primary key after every command exactly if the headers of all files do
that were selected, and as long as they do no update and no alteration reaches that column. -/
theorem staysKeyed_iff {root : Path} {start : Disk} (opened : openAt root disk = .ok session start)
    (visits : List (String × Disk)) :
    (session.StaysKeyed visits ↔ session.SelectsKeyed visits) ∧
      (session.StaysKeyed visits →
        let last := (session.executeEach visits).2
        ∀ command disk statement, Statement.parse command = .ok statement → statement.Rewrites →
          ∀ database, (last.execute command disk).2.1.current = some database →
            ∃ before, last.current = some before ∧ ∀ table ∈ database.tables,
              ∃ old ∈ before.tables, old.key = table.key ∧ old.SameKeyColumn table) := by
  have regular := holds_openAt opened Table.Regular
  refine ⟨staysKeyed_iff_of_holds regular (holds_openAt opened Table.Keyed), fun stays => ?_⟩
  obtain ⟨lastRegular, lastKeyed⟩ := stays.last regular
  intro last command disk statement reads rewrites
  exact sameKeyColumn_of_execute lastRegular lastKeyed reads rewrites

/-- A disk with one file of a table, which has the text. -/
def diskWith (text : String) : Disk :=
  ⟨[], [(["r"], .directory), (["r", "d"], .directory), (["r", "d", "t.tab"], .file text.toUTF8)]⟩

theorem staysKeyed_iff_diskWith :
    let session : Session := ⟨⟨⟨["r"]⟩⟩, none⟩
    let disk := diskWith "ID\ta\n7\tx"
    openAt ⟨["r"]⟩ disk = .ok session disk ∧ session.StaysKeyed [("USE d;", disk)] ∧
      session.SelectsKeyed [("USE d;", disk)] := by
  have opened : openAt ⟨["r"]⟩ (diskWith "ID\ta\n7\tx") =
      .ok ⟨⟨⟨["r"]⟩⟩, none⟩ (diskWith "ID\ta\n7\tx") := by
    decide +kernel
  have selected : (execute ⟨⟨⟨["r"]⟩⟩, none⟩ "USE d;" (diskWith "ID\ta\n7\tx")).2.1.current =
      some ⟨"d", [⟨"t", ["ID", "a"], [["7", "x"]], 1⟩]⟩ := by
    decide +kernel
  have stays : StaysKeyed ⟨⟨⟨["r"]⟩⟩, none⟩ [("USE d;", diskWith "ID\ta\n7\tx")] := by
    refine ⟨holds_openAt opened _, fun database current table member => ?_⟩
    cases selected.symm.trans current
    rw [List.mem_singleton.mp member]
    exact ⟨"ID", rfl, by decide⟩
  exact ⟨opened, stays, (staysKeyed_iff opened _).1.mp stays⟩

/-- A table without the primary key is selected, and its first column is updated and dropped. -/
theorem not_staysKeyed :
    let session : Session := ⟨⟨⟨["r"]⟩⟩, none⟩
    let disk := diskWith "a\tb\n1\t2"
    openAt ⟨["r"]⟩ disk = .ok session disk ∧
      (session.execute "USE d;" disk).1 = .answered .done ∧
      ¬ session.StaysKeyed [("USE d;", disk)] ∧
      (session.executeEach [("USE d;", disk), ("UPDATE t SET a = 5 WHERE b == 2;", disk)]).2.current =
        some ⟨"d", [⟨"t", ["a", "b"], [["5", "2"]], 1⟩]⟩ ∧
      (session.executeEach [("USE d;", disk), ("ALTER TABLE t DROP a;", disk)]).2.current =
        some ⟨"d", [⟨"t", ["b"], [["2"]], 1⟩]⟩ := by
  have selected : (execute ⟨⟨⟨["r"]⟩⟩, none⟩ "USE d;" (diskWith "a\tb\n1\t2")).2.1.current =
      some ⟨"d", [⟨"t", ["a", "b"], [["1", "2"]], 1⟩]⟩ := by
    decide +kernel
  refine ⟨by decide +kernel, by decide +kernel, ?_, by decide +kernel, by decide +kernel⟩
  rintro ⟨-, keyed⟩
  obtain ⟨column, first, spelled⟩ := keyed _ selected _ List.mem_cons_self
  cases first
  exact absurd spelled (by decide)

end Session

end TextTables
