import TextTables.Proofs.Session.Outcomes
import TextTables.Proofs.Table.Assignments
import TextTables.Proofs.Table.KeyColumn

/-!
# What updates do

An update is refused for the first assignment that cannot be made, whatever the condition is and
whatever rows there are. An update that is answered assigns in the rows on which the condition held
before, to each column what was assigned to it last, and changes nothing else.
-/

namespace TextTables.Session

open Text Table

variable {session : Session} {command name : String} {assignments : List (String × Literal)}
  {condition : Condition} {database : Database} {table : Table}

/-- An assignment that cannot be made is refused before anything is changed, and a table with the
name of a word before that. However the session came to the table, an update is answered otherwise
if the condition can be evaluated and the files are written. It then rewrites the rows on which the
condition held, and keeps all else, the primary key among it. -/
theorem execute_update {root : Path} {visits : List (String × Disk)}
    (visited : (executeEach ⟨⟨root⟩, none⟩ visits).2 = session)
    (reads : Statement.parse command = .ok (.update name assignments condition))
    (selected : session.current = some database) (found : database.table name = .ok table)
    (disk : Disk) :
    let changed := table.updated assignments condition
    let later := database.update changed
    (∀ reason, table.firstRefusal? assignments = some reason →
      session.execute command disk =
        (.failed "Failed updating table"
          (.schema (if isReserved name then .reservedWord name else reason)), session, disk)) ∧
    (∀ answer next after, session.execute command disk = (.answered answer, next, after) ↔
      isReserved name = false ∧ table.firstRefusal? assignments = none ∧
        condition.IsEvaluable table ∧
        session.store.saveTable database.name changed disk = .ok () after ∧ answer = .done ∧
        next = { session with current := some later }) ∧
    later.table name = .ok changed ∧ later.without name = database.without name ∧
    (table.Keyed → table.firstRefusal? assignments = none → condition.IsEvaluable table →
      SameKeyColumn table changed) := by
  intro changed later
  have regular := regular_of_found visited selected found
  have named := Statement.isName_of_change? (Statement.wellSpelled_of_parse reads) rfl
  obtain ⟨there, others⟩ := selected_of_update changed named found rfl
  refine ⟨fun reason refused => ?_, fun answer next after => ⟨fun answered => ?_, ?_⟩, there,
    others, fun keyed allowed evaluable => ?_⟩
  · rw [execute_change_eq session reads rfl selected found disk]
    by_cases reserved : isReserved name
    · rw [if_pos reserved, if_pos reserved]
      rfl
    · rw [if_neg reserved, if_neg reserved, update_eq_error refused]
      rfl
  · obtain ⟨free, _, _, _, selectedAgain, foundAgain, done, saved, rfl, rfl⟩ :=
      (execute_change_iff session reads rfl).mp answered
    cases selected.symm.trans selectedAgain
    cases found.symm.trans foundAgain
    obtain ⟨allowed, evaluable, rfl⟩ := (update_eq_ok_iff regular).mp done
    exact ⟨free, allowed, evaluable, saved, rfl, rfl⟩
  · rintro ⟨free, allowed, evaluable, saved, rfl, rfl⟩
    have done := (update_eq_ok_iff regular).mpr ⟨allowed, evaluable, rfl⟩
    exact (execute_change_iff session reads rfl).mpr
      ⟨free, database, table, changed, selected, found, done, saved, rfl, rfl⟩
  · exact sameKeyColumn_update keyed ((update_eq_ok_iff regular).mpr ⟨allowed, evaluable, rfl⟩)

theorem execute_update_twice :
    let disk : Disk := ⟨[], [(["r"], .directory), (["r", "d"], .directory),
      (["r", "d", "t.tab"], .file "id\tname\tmark\n1\tann\t3\n2\tben\t4".toUTF8)]⟩
    let table : Table := ⟨"t", ["id", "name", "mark"], [["1", "ann", "3"], ["2", "ben", "4"]], 2⟩
    let changed : Table := { table with rows := [["1", "x y", "7"], ["2", "ben", "4"]] }
    let session : Session := ⟨⟨⟨["r"]⟩⟩, some ⟨"d", [table]⟩⟩
    let last : Session := ⟨⟨⟨["r"]⟩⟩, some ⟨"d", [changed]⟩⟩
    let command := "UPDATE t SET mark = 5, Name = 'x y', MARK = 7 WHERE mark < 4;"
    (executeEach ⟨⟨⟨["r"]⟩⟩, none⟩ [("USE d;", disk)]).2 = session ∧
      (∃ after, session.execute command disk = (.answered .done, last, after)) ∧
      SameKeyColumn table changed ∧
      session.execute "UPDATE t SET ghost = 5, ID = 4 WHERE mark < 4;" disk =
        (.failed "Failed updating table" (.schema (.unknownColumn "ghost")), session, disk) := by
  intro disk table changed session last command
  let assignments : List (String × Literal) :=
    [("mark", ⟨"5", .integer⟩), ("Name", ⟨"'x y'", .string⟩), ("MARK", ⟨"7", .integer⟩)]
  let condition : Condition := .comparison "mark" .less ⟨"4", .integer⟩
  have visited : (executeEach ⟨⟨⟨["r"]⟩⟩, none⟩ [("USE d;", disk)]).2 = session := by
    decide +kernel
  have found : Database.table ⟨"d", [table]⟩ "t" = .ok table := by decide +kernel
  have reads : Statement.parse command = .ok (.update "t" assignments condition) := by
    decide +kernel
  have answered : (session.execute command disk).1 = .answered .done := by decide +kernel
  have rewritten : table.updated assignments condition = changed := by decide +kernel
  obtain ⟨-, done, -, -, kept⟩ := execute_update visited reads rfl found disk
  obtain ⟨-, allowed, evaluable, -, -, same⟩ := (done _ _ _).mp (Prod.ext answered rfl)
  have readsRefused : Statement.parse "UPDATE t SET ghost = 5, ID = 4 WHERE mark < 4;" =
      .ok (.update "t" [("ghost", ⟨"5", .integer⟩), ("ID", ⟨"4", .integer⟩)] condition) := by
    decide +kernel
  obtain ⟨refused, -⟩ := execute_update visited readsRefused rfl found disk
  rw [rewritten] at same kept
  refine ⟨visited, exists_after answered (same.trans ?_), ?_, ?_⟩
  · decide +kernel
  · exact kept ⟨"id", rfl, by decide +kernel⟩ allowed evaluable
  · exact refused _ (by decide +kernel)

/-- A table that was read from a file can have the name of a word, and no update reaches it. -/
theorem not_execute_update :
    ∃ (disk : Disk) (session : Session) (command : String) (table : Table)
      (assignments : List (String × Literal)) (condition : Condition),
      (executeEach ⟨⟨⟨["r"]⟩⟩, none⟩ [("USE d;", disk)]).2 = session ∧
      session.current = some ⟨"d", [table]⟩ ∧ table.Keyed ∧
      Statement.parse command = .ok (.update table.name assignments condition) ∧
      table.firstRefusal? assignments = some .primaryKeyNotWritable ∧
      (session.execute command disk).1 ≠
        .failed "Failed updating table" (.schema .primaryKeyNotWritable) := by
  refine ⟨⟨[], [(["r"], .directory), (["r", "d"], .directory),
      (["r", "d", "set.tab"], .file "id\ta\n1\tx".toUTF8)]⟩, _,
    "UPDATE set SET id = 1 WHERE a == 'x';", ⟨"set", ["id", "a"], [["1", "x"]], 1⟩,
    [("id", ⟨"1", .integer⟩)], .comparison "a" .equal ⟨"'x'", .string⟩, rfl, ?_,
    ⟨"id", rfl, ?_⟩, ?_, ?_, ?_⟩ <;> decide +kernel

end TextTables.Session
