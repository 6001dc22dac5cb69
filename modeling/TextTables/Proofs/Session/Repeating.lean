import TextTables.Proofs.Session.Outcomes
import TextTables.Proofs.Store.Repeating
import TextTables.Proofs.Table.Assignments

/-!
# Updates and deletions made again

An update or a deletion that was answered is answered again, and finds nothing to do. The tables in
memory and the files stay as the first one left them.
-/

namespace TextTables

/-- The table stands already in the place where it is put. -/
theorem Database.update_update (database : Database) (table : Table) :
    (database.update table).update table = database.update table := by
  unfold update
  rw [List.map_map]
  refine congrArg (Database.mk database.name) (List.map_congr_left fun other _ => ?_)
  by_cases same : other.key = table.key
  · rw [Function.comp_apply, if_pos same, if_pos rfl]
  · rw [Function.comp_apply, if_neg same, if_neg same]

namespace Statement

/-- The table whose rows the statement rewrites or removes, and what it makes of that table. -/
def rewrites? : Statement → Option (String × (Table → Table))
  | update name assignments condition =>
      some (name, fun table => table.updated assignments condition)
  | delete name condition => some (name, fun table => table.remaining condition)
  | _ => none

/-- What is rewritten can be rewritten again, and is what it was. -/
theorem change_of_rewrites? {statement : Statement} {name : String} {rewrite : Table → Table}
    (rewrites : statement.rewrites? = some (name, rewrite)) :
    ∃ change, statement.change? = some (name, change) ∧
      ∀ table changed, table.Regular → change table = .ok changed →
        changed = rewrite table ∧ change changed = .ok changed := by
  cases statement with
  | update name assignments condition =>
      cases rewrites
      refine ⟨_, rfl, fun table changed regular done => ⟨?_, Table.update_again regular done⟩⟩
      exact ((Table.update_eq_ok_iff regular).mp done).2.2
  | delete name condition =>
      cases rewrites
      refine ⟨_, rfl, fun table changed regular done => ⟨?_, Table.delete_again regular done⟩⟩
      exact ((Table.delete_eq_ok_iff regular).mp done).2
  | _ => cases rewrites

end Statement

namespace Session

variable {session next : Session} {command name : String} {statement : Statement}
  {rewrite : Table → Table} {disk after : Disk} {answer : Answer}

/-- However a session came to its tables, an update or a deletion that is answered puts what it makes
of the table in its place. When it is given again at once it is answered again, and neither the
session nor the disk is changed any more. -/
theorem execute_again {root : Path} {visits : List (String × Disk)}
    (visited : (executeEach ⟨⟨root⟩, none⟩ visits).2 = session)
    (reads : Statement.parse command = .ok statement)
    (rewrites : statement.rewrites? = some (name, rewrite))
    (done : session.execute command disk = (.answered answer, next, after)) :
    (∃ database table, session.current = some database ∧ database.table name = .ok table ∧
      next = { session with current := some (database.update (rewrite table)) }) ∧
    next.execute command after = (.answered answer, next, after) := by
  have confined := (Confined.fresh ⟨root⟩).executeEach visits
  rw [visited] at confined
  obtain ⟨change, changes, again⟩ := Statement.change_of_rewrites? rewrites
  obtain ⟨free, database, table, changed, selected, found, made, saved, rfl, rfl⟩ :=
    (execute_change_iff session reads changes).mp done
  have spelled := Statement.wellSpelled_of_parse reads
  have named : IsName name := Statement.isName_of_change? spelled changes
  have called : changed.name = name :=
    confined.name_of_changed spelled changes selected found made
  obtain ⟨there, -⟩ :=
    selected_of_update changed named found (Table.name_of_change changes made).1
  obtain ⟨rfl, madeAgain⟩ := again table changed (regular_of_found visited selected found) made
  refine ⟨⟨database, table, selected, found, rfl⟩, (execute_change_iff _ reads changes).mpr
    ⟨free, _, _, _, rfl, there, madeAgain, Store.saveTable_again (called.symm ▸ named) saved, rfl,
      ?_⟩⟩
  rw [Database.update_update]

theorem execute_again_unmatched :
    let disk : Disk := ⟨[], [(["r"], .directory), (["r", "d"], .directory),
      (["r", "d", "t.tab"], .file "id\tx\n1\tp\n2\tq".toUTF8)]⟩
    let command := "UPDATE t SET x = 'q' WHERE x == 'p';"
    let deletion := "DELETE FROM t WHERE x == 'p';"
    let table : Table := ⟨"t", ["id", "x"], [["1", "p"], ["2", "q"]], 2⟩
    let holding (rows : List Row) : Session :=
      ⟨⟨⟨["r"]⟩⟩, some ⟨"d", [{ table with rows := rows }]⟩⟩
    let session := holding table.rows
    let updated := holding [["1", "q"], ["2", "q"]]
    let deleted := holding [["2", "q"]]
    (executeEach ⟨⟨⟨["r"]⟩⟩, none⟩ [("USE d;", disk)]).2 = session ∧
      (∃ after, session.execute command disk = (.answered .done, updated, after) ∧
        updated.execute command after = (.answered .done, updated, after)) ∧
      ∃ after, session.execute deletion disk = (.answered .done, deleted, after) ∧
        deleted.execute deletion after = (.answered .done, deleted, after) := by
  intro disk command deletion table holding session updated deleted
  let condition : Condition := .comparison "x" .equal ⟨"'p'", .string⟩
  have visited : (executeEach ⟨⟨⟨["r"]⟩⟩, none⟩ [("USE d;", disk)]).2 = session := by
    decide +kernel
  have reads : Statement.parse command =
      .ok (.update "t" [("x", ⟨"'q'", .string⟩)] condition) := by decide +kernel
  have done : (session.execute command disk).1 = .answered .done ∧
      (session.execute command disk).2.1 = updated := by decide +kernel
  have readsDeletion : Statement.parse deletion = .ok (.delete "t" condition) := by decide +kernel
  have doneDeletion : (session.execute deletion disk).1 = .answered .done ∧
      (session.execute deletion disk).2.1 = deleted := by decide +kernel
  obtain ⟨after, first⟩ := exists_after done.1 done.2
  obtain ⟨last, second⟩ := exists_after doneDeletion.1 doneDeletion.2
  refine ⟨visited, ⟨after, first, ?_⟩, ⟨last, second, ?_⟩⟩
  · exact (execute_again visited reads rfl first).2
  · exact (execute_again visited readsDeletion rfl second).2

end Session

end TextTables
