import TextTables.Proofs.Session.Footprint
import TextTables.Proofs.Session.Queries
import TextTables.Proofs.Table.Partition

/-!
# Showing rows and deleting them

A deletion takes away the rows that a query with the same condition shows, and leaves the others and
all other tables. The same query shows nothing behind it.
-/

namespace TextTables.Session

open Text

variable {session middle last : Session} {query deletion name : String} {condition : Condition}
  {disk seen start final : Disk} {result : ResultSet}

/-- A deletion that succeeds puts what the condition leaves of the table in its place. -/
theorem updated_of_delete (deletes : Statement.parse deletion = .ok (.delete name condition))
    (deleted : session.execute deletion start = (.answered .done, last, final)) :
    ∃ database table rest, session.current = some database ∧ database.table name = .ok table ∧
      table.delete condition = .ok rest ∧
      last = { session with current := some (database.update rest) } := by
  rcases execute_change session deletes rfl start with ⟨error, after, failed⟩ |
    ⟨database, table, rest, after, selected, found, done, -, executed⟩
  · cases failed.symm.trans deleted
  · cases executed.symm.trans deleted
    exact ⟨database, table, rest, selected, found, done, rfl⟩

/-- The rows that a query shows and the rows that a deletion leaves are those of the table, each of
them in order. Nothing else is changed, and the query shows no row from then on. -/
theorem interleaved_of_execute {root : Path} {visits : List (String × Disk)}
    (visited : (executeEach ⟨⟨root⟩, none⟩ visits).2 = session)
    (asks : Statement.parse query = .ok (.select .all name (some condition)))
    (deletes : Statement.parse deletion = .ok (.delete name condition))
    (shown : session.execute query disk = (.answered (.table result), middle, seen))
    (deleted : middle.execute deletion start = (.answered .done, last, final)) :
    ∃ before after table rest, session.current = some before ∧ last.current = some after ∧
      before.table name = .ok table ∧ after.table name = .ok rest ∧
      Interleaved result.rows rest.rows table.rows ∧ result.columns = table.columns ∧
      rest = { table with rows := rest.rows } ∧
      after.without name = before.without name ∧
      ∀ later, last.execute query later =
        (.answered (.table ⟨table.columns, []⟩), last, later) := by
  obtain ⟨rfl, -, free, before, table, _, selected, found, projected, same⟩ :=
    (execute_select_iff session asks).mp shown
  obtain ⟨again, tableAgain, rest, selectedAgain, foundAgain, done, rfl⟩ :=
    updated_of_delete deletes deleted
  cases same
  cases selected.symm.trans selectedAgain
  cases found.symm.trans foundAgain
  obtain ⟨member, key⟩ := Database.table_eq_ok found
  have regular : table.Regular := regular_of_visited visited before selected table member
  obtain ⟨interleaved, header, kept⟩ := Table.interleaved_of_delete regular projected done
  have sameKey : table.key = rest.key := by rw [kept, Table.key, Table.key]
  have foundAfter : (before.update rest).table name = .ok rest :=
    Database.table_update found sameKey
  have named : IsName name := Statement.wellSpelled_of_parse deletes
  have called : rest.key = name := by rw [← sameKey, key, named.lower]
  have others : (before.update rest).without name = before.without name := by
    rw [← called]
    exact Database.without_update rest before
  refine ⟨before, before.update rest, table, rest, selected, rfl, found, foundAfter, interleaved,
    header, kept, others, fun later => ?_⟩
  exact (execute_select_iff _ asks).mpr ⟨rfl, rfl, free, _, rest, _, rfl, foundAfter,
    Table.select_of_delete regular done, rfl⟩

theorem interleaved_of_execute_either :
    let disk : Disk := ⟨[], [(["r"], .directory), (["r", "d"], .directory),
      (["r", "d", "s.tab"], .file "id\tx\n1\tp".toUTF8),
      (["r", "d", "s_config.tab"], .file "pk=1".toUTF8),
      (["r", "d", "t.tab"], .file "id\tx\n1\tp\n2\tq\n3\tp\n4\tr".toUTF8),
      (["r", "d", "t_config.tab"], .file "pk=7".toUTF8)]⟩
    let final : Disk := ⟨[], disk.entries.take 4 ++
      [(["r", "d", "t.tab"], .file "id\tx\n4\tr".toUTF8),
        (["r", "d", "t_config.tab"], .file "pk=7".toUTF8)]⟩
    let condition : Condition := .combine .or (.comparison "x" .equal ⟨"'p'", .string⟩)
      (.comparison "id" .equal ⟨"2", .integer⟩)
    let s : Table := ⟨"s", ["id", "x"], [["1", "p"]], 1⟩
    let t : Table := ⟨"t", ["id", "x"], [["1", "p"], ["2", "q"], ["3", "p"], ["4", "r"]], 7⟩
    let session : Session := ⟨⟨⟨["r"]⟩⟩, some ⟨"d", [s, t]⟩⟩
    let last : Session := ⟨⟨⟨["r"]⟩⟩, some ⟨"d", [s, { t with rows := [["4", "r"]] }]⟩⟩
    let result : ResultSet := ⟨["id", "x"], [["1", "p"], ["2", "q"], ["3", "p"]]⟩
    (executeEach ⟨⟨⟨["r"]⟩⟩, none⟩ [("USE d;", disk)]).2 = session ∧
      Statement.parse "SELECT * FROM t WHERE x == 'p' OR id == 2;" =
        .ok (.select .all "t" (some condition)) ∧
      Statement.parse "DELETE FROM t WHERE x == 'p' OR id == 2;" = .ok (.delete "t" condition) ∧
      session.execute "SELECT * FROM t WHERE x == 'p' OR id == 2;" disk =
        (.answered (.table result), session, disk) ∧
      session.execute "DELETE FROM t WHERE x == 'p' OR id == 2;" disk =
        (.answered .done, last, final) ∧
      Interleaved result.rows [["4", "r"]] t.rows ∧
      last.execute "SELECT * FROM t WHERE x == 'p' OR id == 2;" final =
        (.answered (.table ⟨["id", "x"], []⟩), last, final) := by
  intro disk final condition s t session last result
  have visited : (executeEach ⟨⟨⟨["r"]⟩⟩, none⟩ [("USE d;", disk)]).2 = session := by
    decide +kernel
  have asks : Statement.parse "SELECT * FROM t WHERE x == 'p' OR id == 2;" =
      .ok (.select .all "t" (some condition)) := by decide +kernel
  have deletes : Statement.parse "DELETE FROM t WHERE x == 'p' OR id == 2;" =
      .ok (.delete "t" condition) := by decide +kernel
  have shown : session.execute "SELECT * FROM t WHERE x == 'p' OR id == 2;" disk =
      (.answered (.table result), session, disk) := by decide +kernel
  have deleted : session.execute "DELETE FROM t WHERE x == 'p' OR id == 2;" disk =
      (.answered .done, last, final) := by decide +kernel
  obtain ⟨_, _, table, rest, selected, selectedAfter, found, foundAfter, interleaved, -, -, -,
    empty⟩ := interleaved_of_execute visited asks deletes shown deleted
  cases selected
  cases selectedAfter
  have before : Database.table ⟨"d", [s, t]⟩ "t" = .ok t := by decide +kernel
  have after : Database.table ⟨"d", [s, { t with rows := [["4", "r"]] }]⟩ "t" =
      .ok { t with rows := [["4", "r"]] } := by decide +kernel
  cases found.symm.trans before
  cases foundAfter.symm.trans after
  exact ⟨visited, asks, deletes, shown, deleted, interleaved, empty final⟩

end TextTables.Session
